import RingChannel.Proofs.Resemblance

/-!
# The target of a growth

A ring that has to grow walks the growth sequence up to the first member that is large enough. Each
step at least doubles, up to the largest power of two that is a word, so the walk is short, wherever
it starts. It leads to a capacity just when one is large enough, and from a power of two no power of
two is left out on the way: what it leads to is the least capacity that will do.
-/

namespace RingChannel

namespace Capacity

def member (capacity : Nat) : Nat → Option Nat
  | 0 => some capacity
  | n + 1 => (member capacity n).bind next

/-- `target` is the first member of the growth sequence that is at least `required`. -/
def IsFirst (capacity required target : Nat) : Prop :=
  ∃ n, member capacity n = some target ∧ required ≤ target ∧
    ∀ m < n, ∀ earlier, member capacity m = some earlier → earlier < required

theorem member_succ (capacity n : Nat) :
    member capacity (n + 1) = (next capacity).bind (member · n) := by
  induction n with
  | zero => cases h : next capacity <;> simp [member, h]
  | succ n ih =>
      rw [member, ih]
      cases next capacity <;> rfl

theorem shift_le_member {capacity n t : Nat} (h : member capacity (n + 1) = some t) :
    isValid t = true ∧ 1 <<< n ≤ t := by
  induction n generalizing t with
  | zero =>
      rw [member_succ] at h
      obtain ⟨second, hnext, hmember⟩ := Option.bind_eq_some_iff.1 h
      cases hmember
      exact ⟨isValid_of_next hnext, Nat.lt_of_le_of_lt (Nat.zero_le _) (lt_of_next_eq_some hnext)⟩
  | succ n ih =>
      obtain ⟨before, hbefore, hnext⟩ := Option.bind_eq_some_iff.1 h
      obtain ⟨hvalid, hle⟩ := ih hbefore
      obtain ⟨k, -, rfl⟩ := isValid_iff.1 hvalid
      refine ⟨isValid_of_next hnext, ?_⟩
      rw [next_shift] at hnext
      split at hnext
      · cases hnext
        exact shift_le_iff.2 (Nat.succ_le_succ (shift_le_iff.1 hle))
      · cases hnext

/-- Wherever the sequence starts, it ends after 64 steps at the latest. -/
theorem le_of_member {capacity n t : Nat} (h : member capacity n = some t) : n ≤ 64 := by
  cases n with
  | zero => exact Nat.zero_le 64
  | succ n =>
      obtain ⟨hvalid, hle⟩ := shift_le_member h
      obtain ⟨k, hk, rfl⟩ := isValid_iff.1 hvalid
      have hn : n ≤ k := shift_le_iff.1 hle
      omega

/-! ## The walk -/

theorem isFirst_of_firstFrom {capacity required target : Nat}
    (h : firstFrom capacity required = some target) : IsFirst capacity required target := by
  fun_induction firstFrom capacity required with
  | case1 capacity hshort larger hnext ih =>
      obtain ⟨n, hmember, henough, hearlier⟩ := ih h
      refine ⟨n + 1, by rw [member_succ, hnext]; exact hmember, henough, ?_⟩
      intro m hm earlier hmember
      cases m with
      | zero =>
          cases hmember
          exact hshort
      | succ m =>
          rw [member_succ, hnext] at hmember
          exact hearlier m (Nat.lt_of_succ_lt_succ hm) earlier hmember
  | case2 capacity hshort hnext => cases h
  | case3 capacity henough =>
      cases h
      exact ⟨0, rfl, Nat.not_lt.1 henough, fun m hm => absurd hm (Nat.not_lt_zero m)⟩

/-- A walk that leads nowhere has passed all members, and none was large enough. -/
theorem member_lt_of_firstFrom {capacity required n t : Nat}
    (h : firstFrom capacity required = none) (ht : member capacity n = some t) : t < required := by
  fun_induction firstFrom capacity required generalizing n with
  | case1 capacity hshort larger hnext ih =>
      cases n with
      | zero =>
          cases ht
          exact hshort
      | succ n =>
          rw [member_succ, hnext] at ht
          exact ih h ht
  | case2 capacity hshort hnext =>
      cases n with
      | zero =>
          cases ht
          exact hshort
      | succ n =>
          rw [member_succ, hnext] at ht
          cases ht
  | case3 capacity henough => cases h

theorem IsFirst.unique {capacity required a b : Nat} (ha : IsFirst capacity required a)
    (hb : IsFirst capacity required b) : a = b := by
  obtain ⟨m, hm, hma, hmfirst⟩ := ha
  obtain ⟨n, hn, hnb, hnfirst⟩ := hb
  rcases Nat.lt_trichotomy m n with hlt | rfl | hlt
  · exact absurd (hnfirst m hlt a hm) (Nat.not_lt.2 hma)
  · exact Option.some.inj (hm.symm.trans hn)
  · exact absurd (hmfirst n hlt b hn) (Nat.not_lt.2 hnb)

theorem firstFrom_eq_some_iff {capacity required target : Nat} :
    firstFrom capacity required = some target ↔ IsFirst capacity required target := by
  constructor
  · exact isFirst_of_firstFrom
  · intro hfirst
    cases hwalk : firstFrom capacity required with
    | none =>
        obtain ⟨n, hmember, henough, -⟩ := hfirst
        exact absurd (member_lt_of_firstFrom hwalk hmember) (Nat.not_lt.2 henough)
    | some found => rw [(isFirst_of_firstFrom hwalk).unique hfirst]

theorem growthTarget_of_isValid {capacity length needed power : Nat}
    (hvalid : isValid capacity = true) (hpower : LeastPower (length + needed) power) :
    growthTarget capacity length needed =
      if length + needed ≤ 1 <<< 63 then some (max capacity power) else none := by
  by_cases hshort : capacity < length + needed
  · have hmax : max capacity power = power :=
      Nat.max_eq_right (Nat.le_of_lt (Nat.lt_of_lt_of_le hshort hpower.le))
    rw [growthTarget_eq hvalid hshort, hmax, hpower.eq_roundUp]
  · obtain ⟨k, hk, rfl⟩ := isValid_iff.1 hvalid
    have henough : length + needed ≤ 1 <<< k := Nat.not_lt.1 hshort
    have htop : 1 <<< k ≤ 1 <<< 63 := shift_le_iff.2 (by omega)
    have hmax : max (1 <<< k) power = 1 <<< k := Nat.max_eq_left (hpower.least k henough)
    have hword : length + needed < wordBound :=
      Nat.lt_of_le_of_lt henough (shift_lt_wordBound_iff.2 hk)
    rw [if_pos (Nat.le_trans henough htop), hmax, growthTarget, checkedAdd, if_pos hword,
      Option.bind_some, firstFrom, if_neg hshort]

theorem growthTarget_eq_some_iff {capacity length needed target : Nat} :
    growthTarget capacity length needed = some target ↔
      length + needed < wordBound ∧ IsFirst capacity (length + needed) target := by
  unfold growthTarget checkedAdd
  by_cases hword : length + needed < wordBound
  · simp only [hword, if_true, Option.bind_some, firstFrom_eq_some_iff, true_and]
  · simp only [hword, if_false, Option.bind_none, reduceCtorEq, false_and]

theorem exists_growthTarget_iff {capacity length needed : Nat} :
    (∃ target, growthTarget capacity length needed = some target) ↔
      length + needed < wordBound ∧
        ∃ n t, member capacity n = some t ∧ length + needed ≤ t := by
  constructor
  · rintro ⟨target, htarget⟩
    obtain ⟨hword, n, hmember, henough, -⟩ := growthTarget_eq_some_iff.1 htarget
    exact ⟨hword, n, target, hmember, henough⟩
  · rintro ⟨hword, n, t, hmember, henough⟩
    cases hwalk : firstFrom capacity (length + needed) with
    | none => exact absurd (member_lt_of_firstFrom hwalk hmember) (Nat.not_lt.2 henough)
    | some target =>
        exact ⟨target, growthTarget_eq_some_iff.2 ⟨hword, isFirst_of_firstFrom hwalk⟩⟩

theorem growthTarget_eq_none_iff {capacity length needed : Nat} (hvalid : isValid capacity = true) :
    growthTarget capacity length needed = none ↔ 1 <<< 63 < length + needed := by
  rw [growthTarget_of_isValid hvalid (leastPower_roundUp _)]
  split
  · simp only [reduceCtorEq, false_iff]
    omega
  · simp only [true_iff]
    omega

/-- What a capacity that is too small grows to has the room that was asked for. -/
theorem room_of_growthTarget {capacity length needed target : Nat}
    (hshort : capacity < length + needed)
    (h : growthTarget capacity length needed = some target) :
    isValid target = true ∧ capacity < target ∧ needed ≤ target - length := by
  obtain ⟨hvalid, hgrows, henough⟩ := growthTarget_spec hshort h
  exact ⟨hvalid, hgrows, Nat.le_sub_of_add_le' henough⟩

end Capacity

/-! ## A ring that is short of room -/

namespace Growable

variable {α : Type} [Item α] {growable : Growable α} {needed target : Nat}

/-- Without the room that it is asked for, a ring that has a target regrows to it, and that decides
how the call for room ends. -/
theorem grow_of_regrow (h : growable.ring.Invariant 0) {limit : Nat}
    {result : Except RingError Unit} {next : RingBuffer α} (hshort : growable.ring.room < needed)
    (htarget : Capacity.growthTarget growable.ring.capacity growable.ring.live needed =
      some target)
    (hregrow : growable.ring.regrow limit target = .ok (result, next)) :
    ∃ written, growable.grow limit needed = .ok written ∧ written.growable.ring = next ∧
      written.result = result.map fun _ => some ⟨growable.ring.capacity, target⟩ := by
  have hlive := h.live_le
  have hroom : growable.ring.room ≤ growable.ring.capacity := Nat.sub_le _ _
  have hunread : growable.ring.capacity - growable.ring.room = growable.ring.live := by
    unfold RingBuffer.room
    omega
  unfold grow
  simp only [h.free_eq, ok_bind, if_neg (Nat.not_le.2 hshort), subtract_of_le hroom, hunread,
    htarget, hregrow]
  cases result with
  | error error => exact ⟨_, rfl, rfl, rfl⟩
  | ok _ => exact ⟨_, rfl, rfl, rfl⟩

theorem grow_of_target (h : growable.ring.Invariant 0) (limit : Nat)
    (hshort : growable.ring.room < needed)
    (htarget : Capacity.growthTarget growable.ring.capacity growable.ring.live needed =
      some target) :
    (Capacity.isValid target = true ∧ growable.ring.capacity < target ∧
      needed ≤ target - growable.ring.live) ∧
    ∃ result next written, growable.ring.regrow limit target = .ok (result, next) ∧
      growable.grow limit needed = .ok written ∧ written.growable.ring = next ∧
      written.result = result.map fun _ => some ⟨growable.ring.capacity, target⟩ := by
  have hroom : growable.ring.capacity < growable.ring.live + needed :=
    Nat.sub_lt_iff_lt_add' h.live_le |>.1 hshort
  have hlarger := Capacity.room_of_growthTarget hroom htarget
  obtain ⟨next, hregrow, -⟩ := h.holds.regrow limit hlarger.1 hlarger.2.1
  obtain ⟨written, hgrow, hring, hresult⟩ := grow_of_regrow h hshort htarget hregrow
  exact ⟨hlarger, _, next, written, hregrow, hgrow, hring, hresult⟩

end Growable

namespace Capacity

/-- The target of a growth is the first member of the growth sequence that is large enough, if what
is needed in all is a word and there is such a member; the walk to it takes no more than 64 steps.
From a power of two it is the larger one of that and of the least power of two that is enough, and
there is none just where more is needed than the largest power of two that is a word. So a ring that
is short of room regrows to a larger power of two which has that room. -/
theorem growthTarget_least (capacity length needed : Nat) :
    (∀ target, growthTarget capacity length needed = some target ↔
      length + needed < wordBound ∧ IsFirst capacity (length + needed) target) ∧
    ((∃ target, growthTarget capacity length needed = some target) ↔
      length + needed < wordBound ∧
        ∃ n t, member capacity n = some t ∧ length + needed ≤ t) ∧
    (∀ n t, member capacity n = some t → n ≤ 64) ∧
    (isValid capacity = true →
      (∀ power, LeastPower (length + needed) power →
        growthTarget capacity length needed =
          if length + needed ≤ 1 <<< 63 then some (max capacity power) else none) ∧
      (growthTarget capacity length needed = none ↔ 1 <<< 63 < length + needed)) ∧
    (∀ target, capacity < length + needed → growthTarget capacity length needed = some target →
      isValid target = true ∧ capacity < target ∧ needed ≤ target - length) ∧
    ∀ {α : Type} [Item α] (growable : Growable α), growable.ring.Invariant 0 →
      growable.ring.capacity = capacity → growable.ring.live = length →
      growable.ring.room < needed → ∀ limit target,
      growthTarget capacity length needed = some target →
        (isValid target = true ∧ capacity < target ∧ needed ≤ target - length) ∧
        ∃ result next written, growable.ring.regrow limit target = .ok (result, next) ∧
          growable.grow limit needed = .ok written ∧ written.growable.ring = next ∧
          written.result = result.map fun _ => some ⟨capacity, target⟩ := by
  refine ⟨fun target => growthTarget_eq_some_iff, exists_growthTarget_iff,
    fun n t => le_of_member, ?_, fun target => room_of_growthTarget, ?_⟩
  · intro hvalid
    exact ⟨fun power => growthTarget_of_isValid hvalid, growthTarget_eq_none_iff hvalid⟩
  · intro α _ growable hsound hcapacity hlive hshort limit target htarget
    subst hcapacity hlive
    exact Growable.grow_of_target hsound limit hshort htarget

/-- From three slots, no power of two, the sequence leads to eight; behind the largest word there is
no target; and a full ring of two, its window across the largest word, regrows to eight for three
more. -/
theorem growthTarget_least_wrapping :
    let fresh : RingBuffer Tracked :=
      ⟨18446744073709551615, 18446744073709551615, 1, .empty 2, .counting, .zero⟩
    let batch : Block Tracked := .ofArray #[⟨1, false⟩, ⟨2, true⟩]
    growthTarget 3 2 5 = some 8 ∧ growthTarget 4 18446744073709551615 1 = none ∧
      ∃ ring, fresh.writeBatch batch = .ok (2, ring) ∧
        ∃ result next written, ring.regrow 64 8 = .ok (result, next) ∧
          Growable.grow 64 3 ⟨ring, 2⟩ = .ok written ∧ written.growable.ring = next ∧
          written.result = result.map fun _ => some ⟨2, 8⟩ := by
  intro fresh batch
  have hfresh : RingBuffer.create 64 2 .counting 18446744073709551615 = .ok fresh := rfl
  refine ⟨?_, ?_, ?_⟩
  · apply ((growthTarget_least 3 2 5).1 8).2
    refine ⟨by decide, 1, by decide, by decide, ?_⟩
    intro m hm earlier hmember
    cases Nat.lt_one_iff.1 hm
    cases hmember
    decide
  · have hvalid : isValid 4 = true := by decide
    exact ((growthTarget_least 4 18446744073709551615 1).2.2.2.1 hvalid).2.2 (by decide)
  · obtain ⟨ring, hwrite, hring, -⟩ := (RingBuffer.holds_of_create hfresh).writeBatch batch
    have hcapacity : ring.capacity = 2 := hring.capacity_eq
    have hlive : ring.live = 2 := hring.live_eq
    have hshort : ring.room < 3 := by
      rw [RingBuffer.room, hcapacity, hlive]
      decide
    have htarget : growthTarget 2 2 3 = some 8 := by
      have hpower : LeastPower 5 8 := leastPower_roundUp 5
      exact ((growthTarget_least 2 2 3).2.2.2.1 (by decide)).1 8 hpower
    refine ⟨ring, hwrite, ?_⟩
    exact ((growthTarget_least 2 2 3).2.2.2.2.2 ⟨ring, 2⟩ hring.invariant hcapacity hlive hshort
      64 8 htarget).2

end Capacity

end RingChannel
