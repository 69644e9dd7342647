import RingChannel.Proofs.Resemblance

/-!
# The slots of a window

A cursor runs through all words, and its low bits are a slot. The words wrap, and so do the slots,
but a capacity divides the number of words, so neither wrap makes two cursors of a window share a
slot: the unread slots and the free ones together are all slots, each once. The loops that fill,
empty, look through, move and destroy go over the slots of their window one after another. The last
of these runs code that may panic, and then goes no further.
-/

namespace RingChannel

variable {α : Type}

namespace Store

def slots (mask cursor : UInt64) (count : Nat) : List Nat :=
  (List.range count).map fun i => slot mask (cursor + UInt64.ofNat i)

section slots

variable {mask cursor : UInt64}

@[simp] theorem length_slots {count : Nat} : (slots mask cursor count).length = count := by
  simp only [slots, List.length_map, List.length_range]

theorem slots_succ (mask cursor : UInt64) (count : Nat) :
    slots mask cursor (count + 1) = slot mask cursor :: slots mask (cursor + 1) count := by
  have hshift : ∀ i : Nat, cursor + UInt64.ofNat (i + 1) = cursor + 1 + UInt64.ofNat i := by
    intro i
    rw [Nat.add_comm i 1, UInt64.ofNat_add, ← UInt64.add_assoc]
    rfl
  have hfirst : cursor + UInt64.ofNat 0 = cursor := UInt64.add_zero cursor
  rw [slots, List.range_succ_eq_map, List.map_cons, List.map_map, hfirst]
  simp only [slots, Function.comp_def, Nat.succ_eq_add_one, hshift]

theorem slots_add (first second : Nat) :
    slots mask cursor (first + second) =
      slots mask cursor first ++ slots mask (cursor + UInt64.ofNat first) second := by
  rw [slots, List.range_add, List.map_append, List.map_map]
  simp only [slots, Function.comp_def, UInt64.ofNat_add, UInt64.add_assoc]

theorem take_slots {front count : Nat} (h : front ≤ count) :
    (slots mask cursor count).take front = slots mask cursor front := by
  obtain ⟨rest, rfl⟩ := Nat.exists_eq_add_of_le h
  rw [slots_add, List.take_left' length_slots]

variable (hvalid : Capacity.isValid (mask.toNat + 1) = true)

include hvalid

theorem nodup_slots {count : Nat} (hcount : count ≤ mask.toNat + 1) :
    (slots mask cursor count).Nodup := by
  rw [slots, List.nodup_iff_pairwise_ne, List.pairwise_map]
  apply List.Pairwise.imp_of_mem _ List.pairwise_lt_range
  intro i j hi hj hlt hsame
  rw [List.mem_range] at hi hj
  exact absurd ((slot_inj hvalid (by omega) (by omega)).1 hsame) (Nat.ne_of_lt hlt)

/-- As many cursors as there are slots have all of them. -/
theorem mem_slots_iff {index : Nat} :
    index ∈ slots mask cursor (mask.toNat + 1) ↔ index < mask.toNat + 1 := by
  rw [slots, List.mem_map]
  constructor
  · rintro ⟨i, -, rfl⟩
    exact slot_lt hvalid cursor i
  · intro hindex
    obtain ⟨i, hi, hslot⟩ := exists_slot_eq hvalid cursor (Nat.le_of_lt_succ hindex)
    exact ⟨i, List.mem_range.2 (Nat.lt_succ_of_le hi), hslot⟩

theorem slots_from_zero {count : Nat} (hcount : count ≤ mask.toNat + 1) :
    slots mask 0 count = List.range count := by
  apply List.ext_getElem
  · simp only [length_slots, List.length_range]
  · intro i hi _
    rw [length_slots] at hi
    have hslot := slot_add hvalid 0 i
    rw [UInt64.toNat_zero, Nat.zero_add, Nat.mod_eq_of_lt (by omega)] at hslot
    simp only [slots, List.getElem_map, List.getElem_range, hslot]

end slots

/-! ## Loops over slots -/

def putAll (cells : List (Nat × α)) (store : Store α) : Checked (Store α) :=
  cells.foldlM (fun store cell => store.put cell.1 cell.2) store

def takeAll (slots : List Nat) : StateT (Store α) Checked (List α) :=
  slots.mapM fun index store => store.take index

def readAll (slots : List Nat) (store : Store α) : Checked (List α) :=
  slots.mapM store.read

theorem takeAll_cons (index : Nat) (rest : List Nat) (store : Store α) :
    (takeAll (index :: rest)).run store = (do
      let (item, store) ← store.take index
      let (items, store) ← (takeAll rest).run store
      .ok (item :: items, store)) := by
  unfold takeAll
  rw [List.mapM_cons]
  rfl

/-- Filling a run of slots goes over them once. -/
theorem fill_eq (store : Store α) (mask cursor : UInt64) (items : List α) :
    store.fill mask cursor items =
      putAll ((slots mask cursor items.length).zip items) store := by
  induction items generalizing store cursor with
  | nil => rfl
  | cons item rest ih =>
      rw [List.length_cons, slots_succ, List.zip_cons_cons, putAll, List.foldlM_cons, fill]
      simp only [ih]
      rfl

theorem takeRun_eq (store : Store α) (mask cursor : UInt64) (count : Nat) :
    store.takeRun mask cursor count = (takeAll (slots mask cursor count)).run store := by
  induction count generalizing store cursor with
  | zero => rfl
  | succ count ih =>
      rw [slots_succ, takeAll_cons, takeRun]
      simp only [ih]

theorem readRun_eq (store : Store α) (mask cursor : UInt64) (count : Nat) :
    store.readRun mask cursor count = readAll (slots mask cursor count) store := by
  induction count generalizing cursor with
  | zero => rfl
  | succ count ih =>
      rw [slots_succ, readAll, List.mapM_cons, readRun]
      simp only [ih]
      rfl

end Store

namespace RingBuffer

def unreadSlots (ring : RingBuffer α) : List Nat :=
  Store.slots ring.mask ring.tail ring.live

/-- The slots from the head on to the tail, one capacity further on. -/
def freeSlots (ring : RingBuffer α) : List Nat :=
  Store.slots ring.mask ring.head ring.room

/-- The destroying loop empties the first slots of its window, as many as it destroys items. -/
theorem takeAll_of_destroyRun [Item α] {start : UInt64} {left done gone : Nat}
    {ring next : RingBuffer α} {outcome : Outcome Unit} {destroyed : List α}
    (h : ring.destroyRun start left done = .ok (outcome, destroyed, gone, next)) :
    (Store.takeAll ((Store.slots ring.mask (start + UInt64.ofNat done) left).take
      destroyed.length)).run ring.store = .ok (destroyed, next.store) := by
  induction left generalizing done ring outcome destroyed with
  | zero =>
      cases h
      rfl
  | succ left ih =>
      simp only [destroyRun, bind_eq_ok_iff] at h
      obtain ⟨⟨item, store⟩, htake, h⟩ := h
      have htake : ring.store.take (Store.slot ring.mask (start + UInt64.ofNat done)) =
        .ok (item, store) := htake
      rw [Store.slots_succ]
      split at h
      · cases h
        rw [List.length_singleton, List.take_succ_cons, List.take_zero, Store.takeAll_cons, htake]
        rfl
      · simp only [bind_eq_ok_iff] at h
        obtain ⟨⟨_, rest, _, last⟩, hrest, h⟩ := h
        cases h
        -- the loop counts offsets, the list of slots counts cursors
        have hnext := ih hrest
        rw [UInt64.ofNat_add, ← UInt64.add_assoc] at hnext
        have hnext : (Store.takeAll ((Store.slots ring.mask (start + UInt64.ofNat done + 1)
          left).take rest.length)).run store = .ok (rest, last.store) := hnext
        rw [List.length_cons, List.take_succ_cons, Store.takeAll_cons, htake]
        simp only [ok_bind, hnext]

section window

variable {ring : RingBuffer α}

/-- From the tail on the unread slots come first, and then the free ones, up to the capacity. -/
theorem unreadSlots_append_freeSlots (hlive : ring.live ≤ ring.capacity) :
    ring.unreadSlots ++ ring.freeSlots = Store.slots ring.mask ring.tail ring.capacity := by
  have hsum : ring.live + ring.room = ring.capacity := Nat.add_sub_of_le hlive
  rw [unreadSlots, freeSlots, head_eq_tail_add, ← Store.slots_add, hsum]

variable (hvalid : Capacity.isValid ring.capacity = true) (hlive : ring.live ≤ ring.capacity)

include hvalid hlive

theorem nodup_unreadSlots_append : (ring.unreadSlots ++ ring.freeSlots).Nodup := by
  rw [unreadSlots_append_freeSlots hlive]
  exact Store.nodup_slots hvalid (Nat.le_refl _)

theorem mem_freeSlots_iff {index : Nat} :
    index ∈ ring.freeSlots ↔ index < ring.capacity ∧ index ∉ ring.unreadSlots := by
  have hall : index ∈ ring.unreadSlots ++ ring.freeSlots ↔ index < ring.capacity := by
    rw [unreadSlots_append_freeSlots hlive]
    exact Store.mem_slots_iff hvalid
  have happart := (List.nodup_append.1 (nodup_unreadSlots_append hvalid hlive)).2.2
  rw [← hall, List.mem_append]
  constructor
  · intro hfree
    exact ⟨.inr hfree, fun hunread => happart index hunread index hfree rfl⟩
  · rintro ⟨hunread | hfree, hnot⟩
    · exact absurd hunread hnot
    · exact hfree

end window

/-! ## The loops of a ring -/

/-- Which slots the loops of a ring go over: those of their window, in order, each once. -/
structure Sweeps [Item α] (ring : RingBuffer α) : Prop where
  fills : ∀ items : List α, items.length ≤ ring.room → ∃ written,
    ring.store.fill ring.mask ring.head items = .ok written ∧
      Store.putAll ((ring.freeSlots.take items.length).zip items) ring.store = .ok written
  takes : ∀ count ≤ ring.live, ∃ rest,
    ring.store.takeRun ring.mask ring.tail count = .ok (ring.contents.take count, rest) ∧
      (Store.takeAll (ring.unreadSlots.take count)).run ring.store =
        .ok (ring.contents.take count, rest)
  reads : ∀ count ≤ ring.live,
    ring.store.readRun ring.mask ring.tail count = .ok (ring.contents.take count) ∧
      Store.readAll (ring.unreadSlots.take count) ring.store = .ok (ring.contents.take count)
  regrows : ∀ limit capacity, Capacity.isValid capacity = true → ring.capacity < capacity →
    Store.fits α limit capacity = true → ∃ rest store grown,
      (Store.takeAll ring.unreadSlots).run ring.store = .ok (ring.contents, rest) ∧
        Store.putAll ((List.range ring.live).zip ring.contents) (.empty capacity) = .ok store ∧
        ring.regrow limit capacity = .ok (.ok (), grown) ∧ grown.store = store
  disposes : ∃ outcome destroyed left,
    ring.destroyRun ring.tail ring.live 0 = .ok (outcome, destroyed, destroyed.length, left) ∧
      (Store.takeAll (ring.unreadSlots.take (ring.contents.findIdx Item.explodes + 1))).run
        ring.store = .ok (destroyed, left.store) ∧
      ring.dispose = .ok (outcome, destroyed) ∧
      ((∀ item ∈ ring.contents, Item.explodes item = false) →
        outcome = .returned () ∧ destroyed.length = ring.live)

namespace Invariant

variable {ring : RingBuffer α} (h : ring.Invariant 0)

include h

theorem length_contents : ring.contents.length = ring.live :=
  h.holds.live_eq.symm

theorem fill_sweeps {items : List α} (hfit : items.length ≤ ring.room) : ∃ written,
    ring.store.fill ring.mask ring.head items = .ok written ∧
      Store.putAll ((ring.freeSlots.take items.length).zip items) ring.store = .ok written := by
  rw [freeSlots, Store.take_slots hfit, ← Store.fill_eq]
  rw [← h.free_queue] at hfit
  obtain ⟨filled, -, hfill, -⟩ := h.holds.write items hfit
  simp only [RingBuffer.fill, bind_eq_ok_iff] at hfill
  obtain ⟨written, hwritten, -⟩ := hfill
  exact ⟨written, hwritten, hwritten⟩

theorem takeRun_sweeps {count : Nat} (hcount : count ≤ ring.live) : ∃ rest,
    ring.store.takeRun ring.mask ring.tail count = .ok (ring.contents.take count, rest) ∧
      (Store.takeAll (ring.unreadSlots.take count)).run ring.store =
        .ok (ring.contents.take count, rest) := by
  rw [unreadSlots, Store.take_slots hcount, ← Store.takeRun_eq]
  rw [← h.length_contents] at hcount
  obtain ⟨taken, -, htake, -⟩ := h.holds.takeFront hcount
  simp only [RingBuffer.takeRun, bind_eq_ok_iff] at htake
  obtain ⟨⟨items, rest⟩, hrun, hpair⟩ := htake
  cases hpair
  exact ⟨rest, hrun, hrun⟩

theorem readRun_sweeps {count : Nat} (hcount : count ≤ ring.live) :
    ring.store.readRun ring.mask ring.tail count = .ok (ring.contents.take count) ∧
      Store.readAll (ring.unreadSlots.take count) ring.store =
        .ok (ring.contents.take count) := by
  rw [unreadSlots, Store.take_slots hcount, ← Store.readRun_eq]
  rw [← h.length_contents] at hcount
  have hread := h.holds.readRun count (i := 0) (by rw [Nat.zero_add]; exact hcount)
  have hstart : ring.tail + UInt64.ofNat 0 = ring.tail := UInt64.add_zero _
  rw [hstart] at hread
  exact ⟨hread, hread⟩

theorem regrow_sweeps [Item α] {limit capacity : Nat}
    (hvalid : Capacity.isValid capacity = true) (hlarger : ring.capacity < capacity)
    (hfits : Store.fits α limit capacity = true) : ∃ rest store grown,
      (Store.takeAll ring.unreadSlots).run ring.store = .ok (ring.contents, rest) ∧
        Store.putAll ((List.range ring.live).zip ring.contents) (.empty capacity) = .ok store ∧
        ring.regrow limit capacity = .ok (.ok (), grown) ∧ grown.store = store := by
  have hmask := Store.toNat_mask hvalid
  have hlive := h.live_le
  obtain ⟨grown, hregrow, -⟩ := h.holds.regrow limit hvalid hlarger
  obtain ⟨rest, htake, hall⟩ := h.takeRun_sweeps (Nat.le_refl ring.live)
  have hitems : ring.contents.take ring.live = ring.contents :=
    List.take_of_length_le (Nat.le_of_eq h.length_contents)
  have hslots : ring.unreadSlots.take ring.live = ring.unreadSlots :=
    List.take_of_length_le (Nat.le_of_eq Store.length_slots)
  rw [hitems] at htake hall
  rw [hslots] at hall
  simp only [Queue.regrow, hfits, if_true] at hregrow
  -- that it succeeds is known; what it does on the way is read off its steps
  have hrun := hregrow
  have hwindow : (ring.head - ring.tail).toNat = ring.live := rfl
  simp only [RingBuffer.regrow, ensure_of (And.intro hvalid hlarger), hfits, Cursor.load_relaxed,
    Cursor.store_relaxed, hwindow, RingBuffer.takeRun, htake, ok_bind, Bool.not_true,
    Bool.false_eq_true, if_false, bind_eq_ok_iff] at hrun
  obtain ⟨store, hfill, hgrown⟩ := hrun
  cases hgrown
  rw [Store.fill_eq, h.length_contents, Store.slots_from_zero (hmask.symm ▸ hvalid) (by omega)]
    at hfill
  exact ⟨rest, store, _, hall, hfill, hregrow, store_record _ _⟩

theorem dispose_sweeps [Item α] : ∃ outcome destroyed left,
    ring.destroyRun ring.tail ring.live 0 = .ok (outcome, destroyed, destroyed.length, left) ∧
      (Store.takeAll (ring.unreadSlots.take (ring.contents.findIdx Item.explodes + 1))).run
        ring.store = .ok (destroyed, left.store) ∧
      ring.dispose = .ok (outcome, destroyed) ∧
      ((∀ item ∈ ring.contents, Item.explodes item = false) →
        outcome = .returned () ∧ destroyed.length = ring.live) := by
  have hlength := h.length_contents
  have hitems : (ring.queue.items.drop 0).take ring.live = ring.contents :=
    List.take_of_length_le (Nat.le_of_eq hlength)
  obtain ⟨left, hrun, -⟩ := h.holds.destroyRun ring.live (by
    rw [Nat.zero_add]
    exact Nat.le_of_eq hlength.symm)
  rw [hitems, Nat.zero_add] at hrun
  refine ⟨_, _, left, hrun, ?_, h.holds.dispose, ?_⟩
  · have hall := takeAll_of_destroyRun hrun
    have hstart : ring.tail + UInt64.ofNat 0 = ring.tail := UInt64.add_zero _
    have hcount : (demolish ring.contents).2.length =
        min (ring.contents.findIdx Item.explodes + 1) ring.unreadSlots.length := by
      rw [unreadSlots, Store.length_slots, ← hlength]
      exact List.length_take
    rw [List.take_eq_take_min, ← hcount]
    rw [hstart] at hall
    exact hall
  · intro hsafe
    rw [demolish_of_safe hsafe]
    exact ⟨rfl, hlength⟩

theorem sweeps [Item α] : ring.Sweeps where
  fills _ hfit := h.fill_sweeps hfit
  takes _ hcount := h.takeRun_sweeps hcount
  reads _ hcount := h.readRun_sweeps hcount
  regrows _ _ hvalid hlarger hfits := h.regrow_sweeps hvalid hlarger hfits
  disposes := h.dispose_sweeps

end Invariant

/-- Where the low bits of cursors are slots, the cursors of a window have slots of their own, also
where the words or the slots wrap. The unread slots are all different, so are the free ones, and
those are what is left. Each loop goes over the slots of its window one after another, and touches
each of them once; only the one that destroys what is unread when the ring goes ends early, behind
the first item whose destructor panics. -/
theorem windows_distinct {k : Nat} (hk : k < 64) :
    (∀ (s : UInt64) (i : Nat),
      let index := fun offset : Nat =>
        Store.slot (UInt64.ofNat (1 <<< k - 1)) (s + UInt64.ofNat offset)
      index i < 1 <<< k ∧ index i = (s.toNat + i) % (1 <<< k) ∧
        ∀ j, i < 1 <<< k → j < 1 <<< k → (index i = index j ↔ i = j)) ∧
    ∀ {α : Type} [Item α] (ring : RingBuffer α), ring.capacity = 1 <<< k →
      ring.live ≤ ring.capacity →
        ring.unreadSlots.Nodup ∧ ring.freeSlots.Nodup ∧
          (∀ index, index ∈ ring.freeSlots ↔
            index < ring.capacity ∧ index ∉ ring.unreadSlots) ∧
          (ring.Invariant 0 → ring.Sweeps) := by
  have hvalid : Capacity.isValid (1 <<< k) = true := Capacity.isValid_iff.2 ⟨k, hk, rfl⟩
  constructor
  · intro s i index
    have hmask := Store.toNat_mask hvalid
    have hslots : Capacity.isValid ((UInt64.ofNat (1 <<< k - 1)).toNat + 1) = true :=
      hmask.symm ▸ hvalid
    have hlt := Store.slot_lt hslots s i
    have hmod := Store.slot_add hslots s i
    rw [hmask] at hlt hmod
    exact ⟨hlt, hmod, fun j hi hj => Store.slot_inj hslots (by omega) (by omega)⟩
  · intro α _ ring hcapacity hlive
    have hring : Capacity.isValid ring.capacity = true := hcapacity.symm ▸ hvalid
    obtain ⟨hunread, hfree, -⟩ := List.nodup_append.1 (nodup_unreadSlots_append hring hlive)
    exact ⟨hunread, hfree, fun index => mem_freeSlots_iff hring hlive,
      fun hsound => hsound.sweeps⟩

/-- Three items in a ring of four slots, the window across the last word and the last slot: they
come out of three slots, one after another, and the fourth is the free one. -/
theorem windows_distinct_wrapping :
    let fresh : RingBuffer Tracked :=
      ⟨18446744073709551614, 18446744073709551614, 3, .empty 4, .counting, .zero⟩
    let batch : Block Tracked := .ofArray #[⟨1, false⟩, ⟨2, true⟩, ⟨3, false⟩]
    Store.slot 3 (18446744073709551614 + UInt64.ofNat 3) = 1 ∧
      ∃ ring, fresh.writeBatch batch = .ok (3, ring) ∧ ring.unreadSlots = [2, 3, 0] ∧
        [2, 3, 0].Nodup ∧ 1 ∈ ring.freeSlots ∧
        ∃ rest, (Store.takeAll [2, 3, 0]).run ring.store =
          .ok ([⟨1, false⟩, ⟨2, true⟩, ⟨3, false⟩], rest) := by
  intro fresh batch
  have hfresh : RingBuffer.create 64 4 .counting 18446744073709551614 = .ok fresh := rfl
  obtain ⟨ring, hwrite, hring, htail⟩ := (holds_of_create hfresh).writeBatch batch
  have hstart : ring.tail = 18446744073709551614 := htail
  have hmask : ring.mask = 3 := (holds_of_create hfresh).mask_congr hring rfl
  have hlive : ring.live = 3 := hring.live_eq
  have hcapacity : ring.capacity = 4 := hring.capacity_eq
  have hcontents : ring.contents = [⟨1, false⟩, ⟨2, true⟩, ⟨3, false⟩] := hring.contents_eq
  have hslots : ring.unreadSlots = [2, 3, 0] := by
    rw [unreadSlots, hmask, hstart, hlive]
    rfl
  obtain ⟨hindex, hrings⟩ := windows_distinct (k := 2) (by decide)
  obtain ⟨hnodup, -, hfree, hsweeps⟩ := hrings ring hcapacity (by rw [hlive, hcapacity]; decide)
  obtain ⟨rest, -, htake⟩ := (hsweeps hring.invariant).takes 3 (Nat.le_of_eq hlive.symm)
  rw [hslots] at hnodup hfree htake
  rw [hcontents] at htake
  refine ⟨(hindex 18446744073709551614 3).2.1, ring, hwrite, hslots, hnodup, ?_, rest, htake⟩
  rw [hfree, hcapacity]
  decide

/-- A window across the last word, in a ring of two slots with a bomb in the first of them. When the
ring goes, the bomb ends the loop, and the item in the other slot is not touched. -/
theorem dispose_breaks_off :
    let fresh : RingBuffer Tracked :=
      ⟨18446744073709551615, 18446744073709551615, 1, .empty 2, .counting, .zero⟩
    ∃ first ring left, fresh.push ⟨1, true⟩ = .ok (none, first) ∧
      first.push ⟨2, false⟩ = .ok (none, ring) ∧ ring.Invariant 0 ∧ ring.unreadSlots = [1, 0] ∧
      ring.destroyRun ring.tail ring.live 0 =
        .ok (.panicked .destructor, [⟨1, true⟩], 1, left) ∧
      left.store.get? 0 = some ⟨2, false⟩ ∧
      ring.dispose = .ok (.panicked .destructor, [⟨1, true⟩]) := by
  intro fresh
  have hfresh : RingBuffer.create 64 2 .counting 18446744073709551615 = .ok fresh := rfl
  obtain ⟨first, hone, hfirst, htail⟩ := (holds_of_create hfresh).push ⟨1, true⟩
  obtain ⟨ring, htwo, hring, hsame⟩ := hfirst.push ⟨2, false⟩
  have hstart : ring.tail = 18446744073709551615 := hsame.trans htail
  have hmask : ring.mask = 1 := (holds_of_create hfresh).mask_congr hring rfl
  have hlive : ring.live = 2 := hring.live_eq
  have hcontents : ring.contents = [⟨1, true⟩, ⟨2, false⟩] := hring.contents_eq
  obtain ⟨left, hrun, hleft, -, hleftStart⟩ := hring.destroyRun 2 (Nat.le_refl 2)
  have hleftMask : left.mask = ring.mask := hring.mask_congr hleft rfl
  have hother := hleft.row.get?_slot 1 (by rw [hleftMask, hmask]; decide)
  rw [hleftMask, hleftStart, hmask, hstart] at hother
  refine ⟨first, ring, left, hone, htwo, hring.invariant, ?_, ?_, hother, ?_⟩
  · rw [unreadSlots, hmask, hstart, hlive]
    rfl
  · rw [hlive]
    exact hrun
  · rw [hring.dispose]
    rfl

end RingBuffer

end RingChannel
