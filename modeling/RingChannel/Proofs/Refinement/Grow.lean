import RingChannel.Growable.Contention
import RingChannel.Proofs.GrowthSequence
import RingChannel.Proofs.Refinement.Read

/-!
# Growing a ring is growing its queue

A replaced store holds the same items from slot zero on, wherever the cursors had wrapped before. A
producer call of a growable ring makes room first and then writes, on a ring that has the room; so
none of its checks on the way can fail.
-/

namespace RingChannel

variable {α κ τ : Type}

namespace RingBuffer.Holds

variable {ring : RingBuffer α} {gone : Nat} {queue : Queue α}

theorem regrow [Item α] (h : ring.Holds 0 queue) (limit : Nat) {capacity : Nat}
    (hvalid : Capacity.isValid capacity = true) (hlarger : queue.capacity < capacity) :
    ∃ next, ring.regrow limit capacity = .ok ((queue.regrow limit capacity).1, next) ∧
      next.Holds 0 (queue.regrow limit capacity).2 := by
  unfold RingBuffer.regrow Queue.regrow
  simp only [h.capacity_eq, ensure_of (And.intro hvalid hlarger), ok_bind]
  cases hfits : Store.fits α limit capacity with
  | false => exact ⟨ring, rfl, h⟩
  | true =>
      obtain ⟨taken, hrun, -, -, -⟩ := h.takeRun queue.items.length (by omega)
      rw [show UInt64.ofNat 0 = 0 from rfl, UInt64.add_zero, List.drop_zero,
        List.take_of_length_le (Nat.le_refl _)] at hrun
      have hempty := Store.row_empty (α := α) hvalid 0
      have hmask := Store.toNat_mask hvalid
      have hlength := h.length_le
      obtain ⟨store, hfill, hrow⟩ := hempty.fill queue.items 0 (by omega) (fun _ _ => rfl)
      rw [show UInt64.ofNat 0 = 0 from rfl, UInt64.add_zero] at hfill
      have hlive : (ring.head - ring.tail).toNat = queue.items.length := h.live_eq
      simp only [Bool.not_true, Bool.false_eq_true, if_false, if_true, Cursor.load_relaxed,
        Cursor.store_relaxed, hlive, hrun, hfill, ok_bind]
      -- the window starts at cursor zero in the new store, wherever it stood in the old one
      let grown : RingBuffer α :=
        { ring with
          head := UInt64.ofNat queue.items.length
          tail := 0
          mask := UInt64.ofNat (capacity - 1)
          store := store }
      have hgrown : grown.Holds 0 { queue with capacity := capacity } := by
        refine ⟨hrow.congr fun i _ => ?_, hmask, live_of_head ?_ ?_, ?_, Nat.zero_le _,
          h.metered_eq, h.counters_eq⟩
        · change (if 0 ≤ i ∧ i < 0 + queue.items.length then queue.items[i - 0]? else none) =
            if i < 0 then none else queue.items[i]?
          by_cases hi : i < queue.items.length
          · rw [if_pos (by omega), if_neg (Nat.not_lt_zero i), Nat.sub_zero]
          · rw [if_neg (by omega), if_neg (Nat.not_lt_zero i), List.getElem?_eq_none (by omega)]
        · exact (UInt64.zero_add _).symm
        · have hlt := h.capacity_lt
          change queue.items.length < UInt64.size
          omega
        · change queue.items.length ≤ capacity
          omega
      exact ⟨_, rfl, hgrown.record .growth⟩

theorem grow [Item α] (h : ring.Holds 0 queue) (limit needed shown : Nat) :
    ∃ next, Growable.grow limit needed ⟨ring, shown⟩ =
        .ok ⟨(queue.grow limit needed).1, (queue.grow limit needed).2.1,
          ⟨next, Queue.shownAfter shown (queue.grow limit needed).1⟩⟩ ∧
      next.Holds 0 (queue.grow limit needed).2.2 := by
  unfold Growable.grow Queue.grow
  simp only [h.free_eq, ok_bind]
  by_cases hroom : needed ≤ queue.free
  · simp only [hroom, if_true]
    exact ⟨ring, rfl, h⟩
  · have hle : queue.free ≤ queue.capacity := Nat.sub_le _ _
    have hlength : queue.capacity - queue.free = queue.items.length := by
      have hbound := h.length_le
      unfold Queue.free
      omega
    simp only [hroom, if_false, h.capacity_eq, subtract_of_le hle, ok_bind, hlength]
    cases htarget : Capacity.growthTarget queue.capacity queue.items.length needed with
    | none => exact ⟨ring, rfl, h⟩
    | some target =>
        obtain ⟨hvalid, hlarger, -⟩ := Capacity.growthTarget_spec (by omega) htarget
        obtain ⟨next, hregrow, hnext⟩ := h.regrow limit hvalid hlarger
        simp only [hregrow, ok_bind]
        generalize queue.regrow limit target = answer at hnext ⊢
        obtain ⟨result, grown⟩ := answer
        cases result with
        | error error => exact ⟨next, rfl, hnext⟩
        | ok _ => exact ⟨next, rfl, hnext⟩

/-- A producer call that nothing gets ahead of finds or makes the room that it needs. While the
consumer is half way through its window the room must be there. -/
theorem reserve [Item α] (h : ring.Holds gone queue) (limit needed shown : Nat)
    (hnow : gone = 0 ∨ needed ≤ queue.free) :
    ∃ next, Growable.reserve limit needed (.now ⟨ring, shown⟩) =
        .ok ⟨(queue.grow limit needed).1, (queue.grow limit needed).2.1,
          ⟨next, Queue.shownAfter shown (queue.grow limit needed).1⟩⟩ ∧
      next.Holds gone (queue.grow limit needed).2.2 ∧ (needed ≤ queue.free → next = ring) := by
  unfold Growable.reserve Growable.Grant.now
  simp only [h.free_eq, ok_bind]
  by_cases hroom : needed ≤ queue.free
  · simp only [Queue.grow, hroom, if_true]
    exact ⟨ring, rfl, h, fun _ => rfl⟩
  · cases hnow.resolve_right hroom
    obtain ⟨next, hgrow, hnext⟩ := h.grow limit needed shown
    simp only [hroom, if_false]
    exact ⟨next, hgrow, hnext, fun himpossible => himpossible.elim⟩

theorem reserve_waiting [Item α] {asked : RingBuffer α} {before : Queue α}
    (hasked : asked.Holds gone before) (h : ring.Holds 0 queue) (limit needed shown shown' : Nat)
    (hshort : before.free < needed) :
    ∃ next, Growable.reserve limit needed ⟨⟨asked, shown⟩, ⟨ring, shown'⟩⟩ =
        .ok ⟨(queue.grow limit needed).1, (queue.grow limit needed).2.1,
          ⟨next, Queue.shownAfter shown' (queue.grow limit needed).1⟩⟩ ∧
      next.Holds 0 (queue.grow limit needed).2.2 := by
  unfold Growable.reserve
  have hroom : ¬ needed ≤ before.free := by omega
  simp only [hasked.free_eq, ok_bind, hroom, if_false]
  exact h.grow limit needed shown'

end RingBuffer.Holds

namespace Queue

variable {queue : Queue α}

/-- Growing either leaves the items and enough room for what is needed, or it changes nothing and
blames the capacity, which then is too small. -/
theorem grow_cases [Item α] (queue : Queue α) (limit needed : Nat) :
    (∃ growth events grown, queue.grow limit needed = (.ok growth, events, grown) ∧
      grown.items = queue.items ∧ needed ≤ grown.free) ∨
    (∃ requested events, queue.grow limit needed =
        (.error (.growthFailed queue.capacity requested), events, queue) ∧
          queue.free < needed) := by
  unfold grow
  by_cases hroom : needed ≤ queue.free
  · rw [if_pos hroom]
    exact .inl ⟨none, [], queue, rfl, rfl, hroom⟩
  · rw [if_neg hroom]
    cases htarget : Capacity.growthTarget queue.capacity queue.items.length needed with
    | none => exact .inr ⟨_, _, rfl, Nat.not_le.1 hroom⟩
    | some target =>
        simp only [regrow]
        cases hfits : Store.fits α limit target with
        | false =>
            simp only [Bool.false_eq_true, if_false]
            exact .inr ⟨_, _, rfl, Nat.not_le.1 hroom⟩
        | true =>
            unfold free at hroom
            obtain ⟨-, -, hle⟩ := Capacity.growthTarget_spec (by omega) htarget
            simp only [if_true]
            refine .inl ⟨_, _, _, rfl, by simp, ?_⟩
            simp only [free, capacity_record, items_record]
            omega

theorem grow_ok [Item α] {limit needed : Nat} {growth : Option Growth}
    (h : (queue.grow limit needed).1 = .ok growth) :
    needed ≤ (queue.grow limit needed).2.2.free := by
  rcases queue.grow_cases limit needed with ⟨_, _, grown, hgrow, -, hroom⟩ | ⟨_, _, hgrow, -⟩
  · rw [hgrow]
    exact hroom
  · rw [hgrow] at h
    cases h

@[simp] theorem items_grow [Item α] (limit needed : Nat) (queue : Queue α) :
    (queue.grow limit needed).2.2.items = queue.items := by
  rcases queue.grow_cases limit needed with ⟨_, _, grown, hgrow, hitems, -⟩ | ⟨_, _, hgrow, -⟩
  · rw [hgrow]
    exact hitems
  · rw [hgrow]

/-- With room for all that is left, and code of the caller that takes none away, a chunked write
ends only with the last item or a panic. -/
theorem writeRounds_all {reaction : Reaction α Nat κ} {items : Block α} {chunk written : Nat}
    {memory : κ} {queue : Queue α} (hchunk : 0 < chunk) (hle : written ≤ items.size)
    (hroom : items.size - written ≤ queue.free)
    (hreaction : ∀ count memory queue, queue.free ≤ (reaction count memory queue).2.2.free)
    {total : Nat} {rest : κ × Queue α}
    (h : queue.writeRounds items chunk reaction written memory = (.returned total, rest)) :
    total = items.size := by
  fun_induction Queue.writeRounds items chunk reaction written memory queue with
  | case1 written memory queue count hcount =>
      cases h
      omega
  | case2 written memory queue count hcount memory' queue' hrun ih =>
      have hkeep := hreaction count memory
        (queue.append ((items.toList.drop written).take count))
      rw [hrun] at hkeep
      have hlength : ((items.toList.drop written).take count).length = count := by
        simp
        omega
      simp only [free, items_append, List.length_append, capacity_append, hlength] at hkeep hroom
      have hcapacity : count ≤ queue.capacity - queue.items.length := Nat.min_le_right _ _
      refine ih (by omega) ?_ h
      unfold free
      omega
  | case3 => cases h

theorem writeChunked_all {reaction : Reaction α Nat κ} {items : Block α} {chunk : Nat}
    {memory : κ} {queue : Queue α} (hroom : items.size ≤ queue.free)
    (hreaction : ∀ count memory queue, queue.free ≤ (reaction count memory queue).2.2.free)
    {total : Nat} {rest : κ × Queue α}
    (h : queue.writeChunked items chunk reaction memory = (.returned total, rest)) :
    total = items.size := by
  unfold writeChunked at h
  split at h
  · cases h
  · rename_i total' memory' queue' hrounds
    cases h
    by_cases hnone : items.size = 0
    · have hle := (writeRounds_le (Nat.zero_le _) hrounds).2
      omega
    · refine writeRounds_all ?_ (Nat.zero_le _) hroom hreaction hrounds
      unfold RingBuffer.chunkLength
      split <;> omega

end Queue

/-! ## Writing once there is room

What is left of a producer call after its reservation, on the ring that the reservation leaves. -/

section reserved

variable [Item α] {limit gone shown : Nat} {queue : Queue α} {next : RingBuffer α}
  {grant : Growable.Grant α}

theorem insert_of_reserve (item : α)
    (hreserve : Growable.reserve limit 1 grant =
      .ok ⟨(queue.grow limit 1).1, (queue.grow limit 1).2.1, ⟨next, shown⟩⟩)
    (hnext : next.Holds gone (queue.grow limit 1).2.2) :
    ∃ last, Growable.insert limit item grant =
        .ok ⟨(queue.insertGrowing limit item).1, (queue.insertGrowing limit item).2.1,
          ⟨last, shown⟩⟩ ∧
      last.Holds gone (queue.insertGrowing limit item).2.2 ∧ last.tail = next.tail := by
  unfold Growable.insert Queue.insertGrowing
  simp only [hreserve, ok_bind]
  have hroom : ∀ growth, (queue.grow limit 1).1 = .ok growth →
      1 ≤ (queue.grow limit 1).2.2.free := fun _ h => Queue.grow_ok h
  generalize queue.grow limit 1 = answer at hnext hroom ⊢
  obtain ⟨result, events, queue⟩ := answer
  cases result with
  | error cause => exact ⟨next, rfl, hnext, rfl⟩
  | ok growth =>
      obtain ⟨last, hpush, hlast, htail⟩ := hnext.push item
      have hfree : queue.free ≠ 0 := Nat.pos_iff_ne_zero.1 (hroom _ rfl)
      simp only [Queue.push, hfree, if_false] at hpush hlast
      simp only [hpush, ok_bind, Option.isNone_none, ensure_of]
      exact ⟨last, rfl, hlast, htail⟩

theorem writeBatch_of_reserve {items : Block α}
    (hreserve : Growable.reserve limit items.size grant =
      .ok ⟨(queue.grow limit items.size).1, (queue.grow limit items.size).2.1, ⟨next, shown⟩⟩)
    (hnext : next.Holds gone (queue.grow limit items.size).2.2) :
    ∃ last, Growable.writeBatch limit items grant =
        .ok ⟨(queue.writeGrowing limit items).1, (queue.writeGrowing limit items).2.1,
          ⟨last, shown⟩⟩ ∧
      last.Holds gone (queue.writeGrowing limit items).2.2 ∧ last.tail = next.tail := by
  unfold Growable.writeBatch Queue.writeGrowing
  simp only [hreserve, ok_bind]
  have hroom : ∀ growth, (queue.grow limit items.size).1 = .ok growth →
      items.size ≤ (queue.grow limit items.size).2.2.free := fun _ h => Queue.grow_ok h
  generalize queue.grow limit items.size = answer at hnext hroom ⊢
  obtain ⟨result, events, queue⟩ := answer
  cases result with
  | error cause => exact ⟨next, rfl, hnext, rfl⟩
  | ok growth =>
      obtain ⟨last, hwrite, hlast, htail⟩ := hnext.writeBatch items
      have hall : min items.size queue.free = items.size := Nat.min_eq_left (hroom _ rfl)
      simp only [Queue.writeBatch, hall, Nat.sub_self, Queue.record_rejected_zero,
        List.take_of_length_le (Nat.le_of_eq items.length_toList)] at hwrite hlast
      simp only [hwrite, ok_bind, ensure_of]
      exact ⟨last, rfl, hlast, htail⟩

theorem writeChunked_of_reserve {kept : RingBuffer α → τ}
    (hkept : ∀ a b : RingBuffer α, a.tail = b.tail → kept a = kept b)
    (onChunk : Nat → Callback α Nat κ) (reaction : Nat → Queue.Reaction α Nat κ)
    (hreaction : ∀ count memory queue,
      Tracks kept gone (onChunk shown count memory) queue (reaction shown count memory queue))
    (hfree : ∀ count memory queue, queue.free ≤ (reaction shown count memory queue).2.2.free)
    {items : Block α} {before : Nat}
    (hshown : shown = Queue.shownAfter before (queue.grow limit items.size).1)
    (hreserve : Growable.reserve limit items.size grant =
      .ok ⟨(queue.grow limit items.size).1, (queue.grow limit items.size).2.1, ⟨next, shown⟩⟩)
    (hnext : next.Holds gone (queue.grow limit items.size).2.2) (chunk : Nat) (memory : κ) :
    ∃ last, Growable.writeChunked limit items chunk onChunk memory grant =
        .ok ((queue.writeChunkedGrowing limit items chunk reaction memory before).1,
          ⟨(queue.writeChunkedGrowing limit items chunk reaction memory before).2.1,
            (queue.writeChunkedGrowing limit items chunk reaction memory before).2.2.1,
            ⟨last, shown⟩⟩) ∧
      last.Holds gone
        (queue.writeChunkedGrowing limit items chunk reaction memory before).2.2.2 ∧
      kept last = kept next := by
  unfold Growable.writeChunked Queue.writeChunkedGrowing
  simp only [hreserve, ok_bind]
  have hroom : ∀ growth, (queue.grow limit items.size).1 = .ok growth →
      items.size ≤ (queue.grow limit items.size).2.2.free := fun _ h => Queue.grow_ok h
  generalize queue.grow limit items.size = answer at hnext hroom hshown ⊢
  obtain ⟨result, events, queue⟩ := answer
  cases result with
  | error cause => exact ⟨next, rfl, hnext, rfl⟩
  | ok growth =>
      have hshown : Queue.shownAfter before (.ok growth) = shown := hshown.symm
      obtain ⟨last, hwrite, hlast, hsame⟩ :=
        writeChunked_tracks hkept hreaction items chunk memory queue next hnext
      have hwrite : next.writeChunked items chunk (onChunk shown) memory = _ := hwrite
      simp only [hwrite, hshown, ok_bind]
      generalize hanswer : queue.writeChunked items chunk (reaction shown) memory = written
        at hlast ⊢
      obtain ⟨outcome, memory', queue'⟩ := written
      cases outcome with
      | panicked cause => exact ⟨last, rfl, hlast, hsame⟩
      | returned total =>
          have hall := Queue.writeChunked_all (hroom _ rfl) hfree hanswer
          simp only [hall, ensure_of, ok_bind]
          exact ⟨last, rfl, hlast, hsame⟩

end reserved

end RingChannel
