import RingChannel.Proofs.Refinement.Session

/-!
# No run breaks a rule

The representation invariant of a ring: a valid capacity that is the number of slots, cursors no
further apart than that, and items in exactly the slots of the window. Between calls nothing of the
window is vacant. Inside a drain the front may be, while the tail still covers it, and the code of
the caller never meets a ring that is worse than that. A ring that keeps the invariant raises no
fault, so every run of a session ends regularly.
-/

namespace RingChannel

variable {α : Type}

namespace RingBuffer

/-- The slots that hold an item are those of the window, except for its first `gone`. -/
structure Invariant (gone : Nat) (ring : RingBuffer α) : Prop where
  capacity_valid : Capacity.isValid ring.capacity = true
  capacity_eq : ring.capacity = ring.mask.toNat + 1
  size_eq : ring.store.size = ring.capacity
  live_le : ring.live ≤ ring.capacity
  gone_le : gone ≤ ring.live
  occupied_iff : ∀ index, (ring.store.get? index).isSome = true ↔
    ∃ i, gone ≤ i ∧ i < ring.live ∧ ring.slot (ring.tail + UInt64.ofNat i) = index

theorem Holds.invariant {ring : RingBuffer α} {gone : Nat} {queue : Queue α}
    (h : ring.Holds gone queue) : ring.Invariant gone := by
  have hmask := h.mask_eq
  have hlength := h.length_le
  refine ⟨h.row.valid, rfl, h.row.size_eq, ?_, ?_, fun index => ⟨fun hsome => ?_, ?_⟩⟩
  · rw [h.live_eq, h.capacity_eq]
    exact hlength
  · rw [h.live_eq]
    exact h.gone_le
  · rw [h.live_eq]
    by_cases hout : ring.mask.toNat < index
    · rw [h.row.get?_outside index hout] at hsome
      cases hsome
    · obtain ⟨i, hi, hslot⟩ := Store.exists_slot_eq h.row.valid ring.tail (Nat.not_lt.1 hout)
      rw [← hslot, h.row.get?_slot i hi] at hsome
      refine ⟨i, ?_, ?_, hslot⟩
      · refine Nat.not_lt.1 fun hlt => ?_
        rw [if_pos hlt] at hsome
        cases hsome
      · refine Nat.not_le.1 fun hle => ?_
        rw [List.getElem?_eq_none hle, ite_self] at hsome
        cases hsome
  · rintro ⟨i, hgone, hi, rfl⟩
    rw [h.live_eq] at hi
    rw [slot, h.row.get?_slot i (by omega), if_neg (by omega), List.getElem?_eq_getElem hi]
    rfl

end RingBuffer

/-- The invariant, also in its weaker form. -/
def RingBuffer.Sound (ring : RingBuffer α) : Prop :=
  ∃ gone, ring.Invariant gone

open Classical in
/-- The same code of the caller, but a fault ends it where it meets or leaves a ring that is not
sound. -/
noncomputable def Interlude.watched (interlude : Interlude α) : Interlude α :=
  fun face invocation ring => do
    ensure ring.Sound (.overfull ring.live ring.capacity)
    let (answers, ring) ← interlude face invocation ring
    ensure ring.Sound (.overfull ring.live ring.capacity)
    .ok (answers, ring)

theorem Follows.watched {τ : Type} {kept : RingBuffer α → τ} {gone : Nat}
    {interlude : Interlude α} {meanwhile : Queue.Meanwhile α}
    (h : Follows kept gone interlude meanwhile) :
    Follows kept gone interlude.watched meanwhile := by
  intro face invocation queue ring hring
  obtain ⟨next, hrun, hnext, hsame⟩ := h face invocation queue ring hring
  have hbefore : ring.Sound := ⟨gone, hring.invariant⟩
  have hafter : next.Sound := ⟨gone, hnext.invariant⟩
  unfold Interlude.watched
  simp only [ensure_of, hbefore, hrun, hafter, ok_bind]
  exact ⟨next, rfl, hnext, hsame⟩

namespace Session

variable [Item α]

/-- Every run from a new ring ends regularly and leaves a ring that keeps the invariant. From there
the session can end, or make any further call, whose code only meets sound rings. -/
theorem run_sound {limit capacity : Nat} {config : Config} {cursor : UInt64} {ring : RingBuffer α}
    (hring : RingBuffer.create limit capacity config cursor = .ok ring) (kind : Kind) (bytes : Nat)
    {steps : List (Step α)} (hsteps : (around kind bytes ring).AdmitsAll steps) :
    ∃ answers last, (around kind bytes ring).run steps = .ok (answers, last) ∧
      last.channel.ring.Invariant 0 ∧
      (∃ ending, last.finish = .ok ending) ∧
      (∀ call script, ∃ performed channel,
        last.channel.produce last.limit (last.producerInterlude script).watched call =
          .ok (performed, channel) ∧ channel.ring.Invariant 0) ∧
      (∀ call script, ∃ performed channel,
        last.channel.consume (last.consumerInterlude script).watched call =
          .ok (performed, channel) ∧ channel.ring.Invariant 0) := by
  obtain ⟨last, hrun, hlast⟩ := (holds_around hring kind bytes).run hsteps
  refine ⟨_, last, hrun, hlast.ring.invariant, ⟨_, hlast.finish⟩, fun call script => ?_,
    fun call script => ?_⟩
  · obtain ⟨channel, hcall, -, hchannel⟩ := hlast.produce (hlast.producerInterlude script).watched
      (Queue.free_consumeInside _ script) call
    exact ⟨_, channel, hcall, hchannel.invariant⟩
  · obtain ⟨channel, hcall, -, hchannel⟩ := hlast.consume
      (fun gone => (hlast.consumerInterlude script gone).watched)
      (Queue.items_prefix_produceInside _ _ script) call
    exact ⟨_, channel, hcall, hchannel.invariant⟩

/-- A bare ring whose cursors are about to wrap, regrown, and a drain whose handler inserts and
then panics. -/
theorem run_sound_drain_panics :
    let ring : RingBuffer Tracked :=
      ⟨18446744073709551615, 18446744073709551615, 1, .empty 2, .counting, .zero⟩
    let steps : List (Step Tracked) :=
      [.regrow 4, .produce (.insert ⟨1, true⟩) [],
        .consume (.drain 1 (some 0)) [[.insert ⟨2, false⟩]], .consume .clear []]
    RingBuffer.create 64 2 .counting 18446744073709551615 = .ok ring ∧
      (around .bare 64 ring).AdmitsAll steps ∧
      ∃ answers last, (around .bare 64 ring).run steps = .ok (answers, last) ∧
        last.channel.ring.Invariant 0 := by
  intro ring steps
  have hring : RingBuffer.create 64 2 .counting 18446744073709551615 = .ok ring := rfl
  have hsteps : (around .bare 64 ring).AdmitsAll steps :=
    ⟨fun _ => ⟨by decide, by decide⟩, fun _ next _ => next.admitsAll_of_forall (by simp [Admits])⟩
  obtain ⟨answers, last, hrun, hlast, -⟩ := run_sound hring .bare 64 hsteps
  exact ⟨hring, hsteps, answers, last, hrun, hlast⟩

end Session

end RingChannel
