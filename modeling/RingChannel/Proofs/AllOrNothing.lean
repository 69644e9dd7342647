import RingChannel.Proofs.ReadPaths

/-!
# All or nothing

Each exact operation looks at its window, and then leaves the work to the partial operation, which
looks again. Nobody moves a cursor in between, so the second window is as large as the first: what
was enough at the first look is moved as a whole, and what was not has changed nothing.
-/

namespace RingChannel

variable {α σ : Type}

/-- With `room` for `size` items the partial operation moves all of them, and the exact one has the
same effect. With less the exact one leaves everything as it was `before`. -/
structure AllOrNothing (exact : Checked (Bool × σ)) (partly : Checked (Nat × σ)) (before : σ)
    (size room : Nat) : Prop where
  all : size ≤ room → ∃ after, partly = .ok (size, after) ∧ exact = .ok (true, after)
  nothing : room < size → exact = .ok (false, before)

theorem Queue.discard_cases [Item α] {queue : Queue α} {n : Nat} (hn : n ≤ queue.items.length) :
    ((queue.discard n).1 = .returned n ∧ (queue.discard n).2.1 = queue.items.take n) ∨
      (queue.discard n).1 = .panicked .destructor := by
  rcases safe_or_explodes (queue.items.take n) with hsafe | ⟨item, hitem, hexplodes⟩
  · rw [Queue.discard_of_safe hsafe, Nat.min_eq_left hn]
    exact .inl ⟨rfl, rfl⟩
  · exact .inr (Queue.panicked_discard hitem hexplodes)

namespace RingBuffer

namespace Holds

variable {ring : RingBuffer α} {gone : Nat} {queue : Queue α}

theorem writeAll_allOrNothing (h : ring.Holds gone queue) (items : Block α) :
    AllOrNothing (ring.writeAll items) (ring.writeBatch items) ring items.size queue.free := by
  unfold RingBuffer.writeAll
  rw [h.free_eq, ok_bind]
  refine ⟨fun hroom => ?_, fun hshort => if_pos hshort⟩
  rcases h.writeBatch items with ⟨after, hwrite, -, -⟩
  have hall : (queue.writeBatch items).1 = items.size := Nat.min_eq_left hroom
  rw [hall] at hwrite
  rw [if_neg (Nat.not_lt.2 hroom), hwrite, ok_bind]
  refine ⟨after, rfl, ?_⟩
  simp only [decide_true]

theorem readExact_allOrNothing (h : ring.Holds 0 queue) (buffer : Block α) :
    AllOrNothing (ring.readExact buffer) (ring.readBatch buffer) (buffer, ring) buffer.size
      queue.items.length := by
  unfold RingBuffer.readExact
  rw [readable_eq, ok_bind, h.live_eq]
  refine ⟨fun hunread => ?_, fun hshort => if_pos hshort⟩
  rcases h.readBatch buffer with ⟨after, hread, -, -⟩
  have hall : (queue.readBatch buffer).1 = buffer.size := Nat.min_eq_left hunread
  rw [hall] at hread
  rw [if_neg (Nat.not_lt.2 hunread), hread, ok_bind]
  refine ⟨_, rfl, ?_⟩
  simp only [Queue.readBatch, Block.size_cover, decide_true]

variable [Item α]

theorem discardExact_of_le (h : ring.Holds 0 queue) {n : Nat} (hn : n ≤ queue.items.length) :
    ∃ outcome destroyed after, ring.discard n = .ok (outcome, destroyed, after) ∧
      ring.discardExact n = .ok (outcome.map fun _ => true, destroyed, after) ∧
      (outcome = .returned n ∧ destroyed = queue.items.take n ∨
        outcome = .panicked .destructor) := by
  rcases h.discard n with ⟨after, hdiscard, -, -⟩
  unfold RingBuffer.discardExact
  rw [readable_eq, ok_bind, h.live_eq, if_neg (Nat.not_lt.2 hn), hdiscard, ok_bind]
  rcases queue.discard_cases hn with ⟨houtcome, hdestroyed⟩ | houtcome
  · rw [houtcome, hdestroyed]
    refine ⟨_, _, after, rfl, ?_, .inl ⟨rfl, rfl⟩⟩
    simp only [Outcome.map, decide_true]
  · rw [houtcome]
    exact ⟨_, _, after, rfl, rfl, .inr rfl⟩

theorem discardExact_of_lt (h : ring.Holds 0 queue) {n : Nat} (hn : queue.items.length < n) :
    ring.discardExact n = .ok (.returned false, [], ring) := by
  unfold RingBuffer.discardExact
  rw [readable_eq, ok_bind, h.live_eq]
  exact if_pos hn

end Holds

/-- A write of all on a ring in the middle of a drain, whatever the drain has taken from it. -/
theorem Invariant.writeAll_allOrNothing {ring : RingBuffer α} {gone : Nat}
    (h : ring.Invariant gone) (items : Block α) :
    AllOrNothing (ring.writeAll items) (ring.writeBatch items) ring items.size ring.room := by
  by_cases hnone : items.size = 0
  · have hfree : ring.free = .ok ring.room := h.free_eq
    have hwrite : ring.writeBatch items = .ok (items.size, ring) := by
      simp only [writeBatch, producerWindow, hfree, ok_bind, hnone, Nat.zero_min,
        subtract_of_le (Nat.le_refl 0), if_true]
    refine ⟨fun _ => ⟨ring, hwrite, ?_⟩, fun hshort => ?_⟩
    · simp only [writeAll, hfree, ok_bind, hwrite, hnone, Nat.not_lt_zero, if_false, decide_true]
    · exact absurd hshort (by omega)
  · -- some item stands in for each of those that the drain has taken
    let item := items.entry ⟨0, Nat.pos_of_ne_zero hnone⟩
    have hfront : (List.replicate gone item).length = gone := List.length_replicate
    rcases h.exists_holds hfront with ⟨queue, hring⟩
    have hfree : ring.room = queue.free := by
      rw [room, hring.capacity_eq, hring.live_eq, Queue.free]
    rw [hfree]
    exact hring.writeAll_allOrNothing items

/-- The exact operations, on any ring that a caller can meet, also in the middle of a drain. A
write of all asks for the free slots, a read for the unread items. A discard that goes off has found
enough items, and is broken off where the partial one is. -/
theorem Invariant.exact_allOrNothing [Item α] {ring : RingBuffer α} {gone : Nat}
    (h : ring.Invariant gone) :
    (∀ items : Block α,
      AllOrNothing (ring.writeAll items) (ring.writeBatch items) ring items.size ring.room) ∧
    (gone = 0 →
      (∀ buffer : Block α,
        AllOrNothing (ring.readExact buffer) (ring.readBatch buffer) (buffer, ring) buffer.size
          ring.live) ∧
      (∀ n ≤ ring.live, ∃ outcome destroyed after,
        ring.discard n = .ok (outcome, destroyed, after) ∧
        ring.discardExact n = .ok (outcome.map fun _ => true, destroyed, after) ∧
        (outcome = .returned n ∧ destroyed = ring.contents.take n ∨
          outcome = .panicked .destructor)) ∧
      ∀ n > ring.live, ring.discardExact n = .ok (.returned false, [], ring)) := by
  refine ⟨h.writeAll_allOrNothing, ?_⟩
  rintro rfl
  have hring := h.holds
  rw [hring.live_eq]
  exact ⟨hring.readExact_allOrNothing, fun n hn => hring.discardExact_of_le hn,
    fun n hn => hring.discardExact_of_lt hn⟩

/-- Three items in a ring of four whose cursors wrap after the first, the last of them a bomb: one
more fits and two do not, three are there to read and five are not, and a discard of three goes off
in both forms. -/
theorem exact_allOrNothing_wrapping :
    let fresh : RingBuffer Tracked :=
      ⟨18446744073709551615, 18446744073709551615, 3, .empty 4, .counting, .zero⟩
    let batch : Block Tracked := .ofArray #[⟨1, false⟩, ⟨2, false⟩, ⟨3, true⟩]
    let block : Nat → Block Tracked := fun size => .replicate size ⟨0, false⟩
    ∃ ring, fresh.writeBatch batch = .ok (3, ring) ∧ ring.Invariant 0 ∧
      (∃ after, ring.writeBatch (block 1) = .ok (1, after) ∧
        ring.writeAll (block 1) = .ok (true, after)) ∧
      ring.writeAll (block 2) = .ok (false, ring) ∧
      (∃ after, ring.readBatch (block 0) = .ok (0, after) ∧
        ring.readExact (block 0) = .ok (true, after)) ∧
      (∃ after, ring.readBatch (block 3) = .ok (3, after) ∧
        ring.readExact (block 3) = .ok (true, after)) ∧
      ring.readExact (block 5) = .ok (false, block 5, ring) ∧
      (∃ after, ring.discard 3 = .ok (.panicked .destructor, after) ∧
        ring.discardExact 3 = .ok (.panicked .destructor, after)) ∧
      ring.discardExact 4 = .ok (.returned false, [], ring) := by
  intro fresh batch block
  have hfresh : create 64 4 .counting 18446744073709551615 = .ok fresh := rfl
  rcases (holds_of_create hfresh).writeBatch batch with ⟨ring, hwrite, hring, -⟩
  have hlive : ring.live = 3 := hring.live_eq
  have hroom : ring.room = 1 := by
    rw [room, hlive, hring.capacity_eq]
    rfl
  rcases hring.invariant.exact_allOrNothing with ⟨hwrites, hothers⟩
  rcases hothers rfl with ⟨hreads, hdiscards, hrefused⟩
  rw [hroom] at hwrites
  rw [hlive] at hreads hdiscards hrefused
  rcases hdiscards 3 (by decide) with ⟨outcome, destroyed, after, hdiscard, hexact, -⟩
  have hpanic : outcome = .panicked .destructor := by
    rcases hring.discard 3 with ⟨_, hqueue, -, -⟩
    rw [hdiscard] at hqueue
    cases hqueue
    rfl
  cases hpanic
  exact ⟨ring, hwrite, hring.invariant, (hwrites (block 1)).all (by decide),
    (hwrites (block 2)).nothing (by decide), (hreads (block 0)).all (by decide),
    (hreads (block 3)).all (by decide), (hreads (block 5)).nothing (by decide),
    ⟨_, hdiscard, hexact⟩, hrefused 4 (by decide)⟩

end RingBuffer

end RingChannel
