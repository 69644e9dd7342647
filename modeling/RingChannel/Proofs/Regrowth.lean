import RingChannel.Proofs.FailedGrowth
import RingChannel.Proofs.Resemblance

/-!
# Regrowing a bare ring

The window of a ring may lie anywhere: across the end of the store, across the end of the words.
Regrowing straightens it. The unread items stand in the first slots of the new store, in their
order, and from then on the ring answers as any ring of that capacity with these items. Without
memory for the new store the ring stays as it is.
-/

namespace RingChannel

variable {α : Type}

namespace RingBuffer

structure Regrown (ring : RingBuffer α) (capacity : Nat) (grown : RingBuffer α) : Prop where
  capacity_eq : grown.capacity = capacity
  size_eq : grown.store.size = capacity
  tail_eq : grown.tail = 0
  head_eq : grown.head.toNat = ring.contents.length
  get?_eq : ∀ index, grown.store.get? index = ring.contents[index]?
  contents_eq : grown.contents = ring.contents
  config_eq : grown.config = ring.config
  counters_eq : grown.counters =
    if ring.config.metered then ring.counters.add .growth else ring.counters

theorem tail_of_regrow [Item α] {limit capacity : Nat} {ring grown : RingBuffer α}
    (h : ring.regrow limit capacity = .ok (.ok (), grown)) :
    grown.tail = 0 ∧ grown.config = ring.config := by
  simp only [regrow, bind_eq_ok_iff] at h
  rcases h with ⟨_, -, h⟩
  split at h
  · cases h
  · simp only [Cursor.load_relaxed, Cursor.store_relaxed, ok_bind, bind_eq_ok_iff] at h
    rcases h with ⟨_, -, _, -, h⟩
    cases h
    exact ⟨tail_record _ _, config_record _ _⟩

/-- In a ring whose window starts at cursor zero the slots hold the unread items in order. -/
theorem Holds.get?_of_tail {ring : RingBuffer α} {queue : Queue α} (h : ring.Holds 0 queue)
    (htail : ring.tail = 0) (index : Nat) : ring.store.get? index = queue.items[index]? := by
  have hmask := h.mask_eq
  have hlength := h.length_le
  by_cases hin : index ≤ ring.mask.toNat
  · have hslot : Store.slot ring.mask (ring.tail + UInt64.ofNat index) = index := by
      rw [Store.slot_add h.row.valid, htail, UInt64.toNat_zero, Nat.zero_add,
        Nat.mod_eq_of_lt (by omega)]
    have hcell := h.row.get?_slot index hin
    rw [hslot, if_neg (Nat.not_lt_zero index)] at hcell
    exact hcell
  · rw [h.row.get?_outside index (by omega), List.getElem?_eq_none (by omega)]

namespace Invariant

variable [Item α] {ring : RingBuffer α} (h : ring.Invariant 0) {limit capacity : Nat}
  (hvalid : Capacity.isValid capacity = true) (hlarger : ring.capacity < capacity)

include h hvalid hlarger

theorem regrow_of_fits (hfits : Store.fits α limit capacity = true) :
    ∃ grown, ring.regrow limit capacity = .ok (.ok (), grown) ∧ grown.Invariant 0 ∧
      ring.Regrown capacity grown := by
  rcases h.holds.regrow limit hvalid hlarger with ⟨grown, hrun, hgrown⟩
  simp only [Queue.regrow, hfits, if_true] at hrun hgrown
  rcases tail_of_regrow hrun with ⟨htail, hconfig⟩
  have hitems : ({ ring.queue with capacity := capacity }.record .growth).items = ring.contents :=
    Queue.items_record _ _
  have hsize : grown.store.size = capacity := by
    rw [hgrown.row.size_eq, hgrown.mask_eq, Queue.capacity_record]
  have hhead : grown.head.toNat = ring.contents.length := by
    have hlt := hgrown.capacity_lt
    have hle := hgrown.length_le
    rw [hitems] at hle
    rw [hgrown.head_eq, htail, hitems, UInt64.zero_add, UInt64.toNat_ofNat',
      Nat.mod_eq_of_lt (Nat.lt_of_le_of_lt hle hlt)]
  have hcounters : grown.counters =
      if ring.config.metered then ring.counters.add .growth else ring.counters := by
    rw [hgrown.counters_eq, Queue.record]
    change (if ring.config.metered then _ else _ : Queue α).counters = _
    split <;> rfl
  refine ⟨grown, hrun, hgrown.invariant, ?_, hsize, htail, hhead, fun index => ?_, ?_, hconfig,
    hcounters⟩
  · rw [hgrown.capacity_eq, Queue.capacity_record]
  · rw [hgrown.get?_of_tail htail, hitems]
  · rw [hgrown.contents_eq, hitems]

theorem regrow_of_not_fits (hfits : Store.fits α limit capacity = false) :
    ring.regrow limit capacity =
      .ok (.error (.growthFailed ring.capacity capacity), ring) := by
  rcases h.holds.regrow limit hvalid hlarger with ⟨next, hrun, -⟩
  simp only [Queue.regrow, hfits, Bool.false_eq_true, if_false] at hrun
  cases eq_of_regrow_error hrun
  exact hrun

end Invariant

end RingBuffer

namespace Session

variable [Item α]

theorem step_of_regrow {session : Session α} (hface : session.channel.face = .bare)
    (hused : (session.producing || session.consuming) = true) {capacity : Nat}
    {result : Except RingError Unit} {ring : RingBuffer α} (hring : ring.Invariant 0)
    (hregrow : session.channel.ring.regrow session.limit capacity = .ok (result, ring)) :
    ∃ answer, session.step (.regrow capacity) = .ok (answer, session.withRing ring) ∧
      answer.reply = .regrown result ∧ answer.destroyed = [] ∧ answer.events = [] := by
  have hholds : (session.withRing ring).Holds (session.withRing ring).model := holds_model hring
  have hstatus := hholds.status
  unfold withRing at hstatus ⊢
  rw [hface] at hstatus ⊢
  unfold Session.step Session.take Session.regrow
  simp only [hface, hused, if_true, hregrow, hstatus, ok_bind]
  exact ⟨_, rfl, rfl, rfl, rfl⟩

/-- A regrown bare ring holds its unread items in the first slots of a store of the new size, its
cursors start at zero, the growth is all that was counted, and every later run is answered as on
any ring of that capacity with these items and counts. Without memory for the new store the growth
fails and nothing has changed. -/
theorem regrow_straightens {session : Session α} (h : session.Reachable)
    (hface : session.channel.face = .bare)
    (hused : (session.producing || session.consuming) = true) {capacity : Nat}
    (hvalid : Capacity.isValid capacity = true)
    (hlarger : session.channel.ring.capacity < capacity) :
    ∃ answer next, session.step (.regrow capacity) = .ok (answer, next) ∧
      answer.destroyed = [] ∧ answer.events = [] ∧
      (Store.fits α session.limit capacity = true →
        answer.reply = .regrown (.ok ()) ∧
        next = session.withRing next.channel.ring ∧
        session.channel.ring.Regrown capacity next.channel.ring ∧
        ∀ other : RingBuffer α, other.Invariant 0 → other.capacity = capacity →
          other.contents = session.channel.ring.contents →
          other.config.metered = session.channel.ring.config.metered →
          other.counters = next.channel.ring.counters →
          ∀ steps, next.transcript steps = (session.withRing other).transcript steps) ∧
      (Store.fits α session.limit capacity = false →
        answer.reply =
          .regrown (.error (.growthFailed session.channel.ring.capacity capacity)) ∧
        next = session) := by
  have hinvariant := h.invariant
  cases hfits : Store.fits α session.limit capacity with
  | false =>
      have hregrow := hinvariant.regrow_of_not_fits hvalid hlarger hfits
      rcases step_of_regrow hface hused hinvariant hregrow with
        ⟨answer, hstep, hreply, hdestroyed, hevents⟩
      exact ⟨answer, session, hstep, hdestroyed, hevents, by rintro ⟨⟩, fun _ => ⟨hreply, rfl⟩⟩
  | true =>
      rcases hinvariant.regrow_of_fits hvalid hlarger hfits with
        ⟨grown, hregrow, hsound, hgrown⟩
      rcases step_of_regrow hface hused hsound hregrow with
        ⟨answer, hstep, hreply, hdestroyed, hevents⟩
      refine ⟨answer, session.withRing grown, hstep, hdestroyed, hevents, fun _ => ?_,
        by rintro ⟨⟩⟩
      refine ⟨hreply, rfl, hgrown, ?_⟩
      intro other hother hcapacity hcontents hmetered hcounters steps
      apply session.transcript_of_resembles hsound hother
      apply RingBuffer.Resembles.mk
      · rw [hgrown.capacity_eq, hcapacity]
      · rw [hgrown.contents_eq, hcontents]
      · rw [hgrown.config_eq, hmetered]
      · exact hcounters.symm

/-- The cursors of a ring start at the last word, so its first item stands in slot one and its
second one in slot zero. There is memory for four slots and not for eight. -/
theorem regrow_straightens_wrapped :
    let ring : RingBuffer Tracked :=
      ⟨18446744073709551615, 18446744073709551615, 1, .empty 2, .counting, .zero⟩
    let steps : List (Step Tracked) :=
      [.produce (.insert ⟨1, true⟩) [], .produce (.insert ⟨2, false⟩) []]
    ∃ answers session, (around .bare 64 ring).run steps = .ok (answers, session) ∧
      session.Reachable ∧ session.channel.face = .bare ∧
      (∃ answer next, session.step (.regrow 4) = .ok (answer, next) ∧
        answer.reply = .regrown (.ok ()) ∧ next.channel.ring.head.toNat = 2 ∧
        next.channel.ring.store.get? 0 = some ⟨1, true⟩ ∧
        next.channel.ring.store.get? 1 = some ⟨2, false⟩ ∧
        next.channel.ring.store.get? 2 = none ∧ next.channel.ring.counters.growths = 1) ∧
      ∃ answer, session.step (.regrow 8) = .ok (answer, session) ∧
        answer.reply = .regrown (.error (.growthFailed 2 8)) := by
  intro ring steps
  have hring : RingBuffer.create 64 2 .counting 18446744073709551615 = .ok ring := rfl
  have hsteps : (around .bare 64 ring).AdmitsAll steps :=
    admitsAll_of_forall (by simp [steps, Admits]) _
  rcases (holds_around hring .bare 64).run hsteps with ⟨session, hrun, hsession⟩
  have hreachable : session.Reachable := (Reachable.around hring .bare 64).run hsteps hrun
  have hface : session.channel.face = .bare := hsession.face_eq
  have hused : (session.producing || session.consuming) = true := by
    rw [hsession.producing_eq]
    rfl
  have hcapacity : session.channel.ring.capacity = 2 := hsession.ring.capacity_eq
  have hcontents : session.channel.ring.contents = [⟨1, true⟩, ⟨2, false⟩] :=
    hsession.ring.contents_eq
  have hmetered : session.channel.ring.config.metered = true := hsession.ring.metered_eq
  have hgrowths : session.channel.ring.counters.growths = 0 :=
    congrArg Counters.growths hsession.ring.counters_eq
  have hlimit : session.limit = 64 := hsession.limit_eq
  have hsmall : Capacity.isValid 4 = true := by decide
  have hlarge : Capacity.isValid 8 = true := by decide
  rcases regrow_straightens hreachable hface hused hsmall (by rw [hcapacity]; decide) with
    ⟨answer, next, hstep, -, -, hfits, -⟩
  rw [hlimit] at hfits
  rcases hfits (by decide) with ⟨hreply, -, hgrown, -⟩
  have hhead := hgrown.head_eq
  have hslots := hgrown.get?_eq
  have hcounters := hgrown.counters_eq
  rw [hcontents] at hhead hslots
  rw [hmetered, if_pos rfl] at hcounters
  have hcounted : next.channel.ring.counters.growths = 1 := by
    rw [hcounters, Counters.add, hgrowths]
    rfl
  rcases regrow_straightens hreachable hface hused hlarge (by rw [hcapacity]; decide) with
    ⟨refused, same, hstep', -, -, -, hstuck⟩
  rw [hlimit, hcapacity] at hstuck
  rcases hstuck (by decide) with ⟨hreply', hsame⟩
  cases hsame
  exact ⟨_, session, hrun, hreachable, hface,
    ⟨answer, next, hstep, hreply, hhead, hslots 0, hslots 1, hslots 2, hcounted⟩,
    refused, hstep', hreply'⟩

end Session

end RingChannel
