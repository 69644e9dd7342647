import RingChannel.Proofs.Attempts
import RingChannel.Proofs.Holds

/-!
# Writing to a ring is writing to its queue

Each producer operation, on a ring that holds a queue, ends regularly, answers as the operation on
the queue does, and leaves a ring that holds the resulting queue. The tail stays where it is. The
statements hold for any number of vacant slots at the front, so they also cover producer calls made
while the consumer is half way through its window.
-/

namespace RingChannel

variable {α κ ρ τ : Type}

/-- The computation does to a ring what led from `queue` to `answer`, and what `kept` shows of the
ring stays the same. -/
def Tracks (kept : RingBuffer α → τ) (gone : Nat)
    (run : RingBuffer α → Checked (ρ × κ × RingBuffer α)) (queue : Queue α)
    (answer : ρ × κ × Queue α) : Prop :=
  ∀ ring, ring.Holds gone queue → ∃ next, run ring = .ok (answer.1, answer.2.1, next) ∧
    next.Holds gone answer.2.2 ∧ kept next = kept ring

theorem Queue.record_rejected_add (queue : Queue α) (a b : Nat) :
    (queue.record (.rejected a)).record (.rejected b) = queue.record (.rejected (a + b)) := by
  cases hmetered : queue.metered <;>
    simp [Queue.record, hmetered, Counters.add, UInt64.ofNat_add, UInt64.add_assoc]

namespace RingBuffer.Holds

variable {ring : RingBuffer α} {gone : Nat} {queue : Queue α}

theorem record_rejected (h : ring.Holds gone queue) (refused : Nat) :
    (if refused = 0 then ring else ring.record (.rejected refused)).Holds gone
      (queue.record (.rejected refused)) := by
  by_cases hzero : refused = 0
  · subst hzero
    simpa using h
  · rw [if_neg hzero]
    exact h.record _

theorem push (h : ring.Holds gone queue) (item : α) :
    ∃ next, ring.push item = .ok ((queue.push item).1, next) ∧
      next.Holds gone (queue.push item).2 ∧ next.tail = ring.tail := by
  unfold RingBuffer.push Queue.push
  simp only [producerWindow, h.free_eq, ok_bind]
  by_cases hfull : queue.free = 0
  · simp only [hfull, if_true]
    exact ⟨_, rfl, h.record _, tail_record _ _⟩
  · obtain ⟨filled, written, hfill, hpublish, hholds, htail⟩ :=
      h.write [item] (Nat.pos_of_ne_zero hfull)
    rw [List.length_singleton] at hpublish
    simp only [hfull, if_false, hfill, hpublish, ok_bind]
    exact ⟨written, rfl, hholds, htail⟩

theorem writeBatch (h : ring.Holds gone queue) (items : Block α) :
    ∃ next, ring.writeBatch items = .ok ((queue.writeBatch items).1, next) ∧
      next.Holds gone (queue.writeBatch items).2 ∧ next.tail = ring.tail := by
  unfold RingBuffer.writeBatch Queue.writeBatch
  have hcount : min items.size queue.free ≤ items.size := Nat.min_le_left _ _
  simp only [producerWindow, h.free_eq, ok_bind, subtract_of_le hcount]
  generalize hrefused : items.size - min items.size queue.free = refused
  have hcounted := h.record_rejected refused
  generalize hring : (if refused = 0 then ring else ring.record (.rejected refused)) = counted
    at hcounted ⊢
  have hcursors : counted.head = ring.head ∧ counted.tail = ring.tail := by
    rw [← hring]
    split <;> simp
  by_cases hzero : min items.size queue.free = 0
  · simp only [hzero, if_true, List.take_zero, Queue.append_nil]
    exact ⟨counted, rfl, hcounted, hcursors.2⟩
  · have hlength : (items.toList.take (min items.size queue.free)).length =
        min items.size queue.free := by simp
    obtain ⟨filled, written, hfill, hpublish, hholds, htail⟩ :=
      hcounted.write (items.toList.take (min items.size queue.free)) (by
        rw [hlength, Queue.free_record]
        exact Nat.min_le_right _ _)
    rw [hlength, hcursors.1] at hpublish
    rw [hcursors.1] at hfill
    have hslice : items.slice 0 (min items.size queue.free) = .ok _ :=
      Block.slice_of_le (by
        rw [Nat.zero_add]
        exact hcount)
    simp only [hzero, if_false, hslice, List.drop_zero, hfill, hpublish, ok_bind]
    exact ⟨written, rfl, hholds, htail.trans hcursors.2⟩

theorem writeAll (h : ring.Holds gone queue) (items : Block α) :
    ∃ next, ring.writeAll items = .ok ((queue.writeAll items).1, next) ∧
      next.Holds gone (queue.writeAll items).2 ∧ next.tail = ring.tail := by
  unfold RingBuffer.writeAll Queue.writeAll
  simp only [h.free_eq, ok_bind]
  by_cases hshort : queue.free < items.size
  · simp only [hshort, if_true]
    exact ⟨ring, rfl, h, rfl⟩
  · obtain ⟨next, hwrite, hholds, htail⟩ := h.writeBatch items
    have hall : min items.size queue.free = items.size := by omega
    simp only [Queue.writeBatch, hall, Nat.sub_self, Queue.record_rejected_zero,
      List.take_of_length_le (Nat.le_of_eq items.length_toList)] at hwrite hholds
    simp only [hshort, if_false, hwrite, ok_bind, decide_true]
    exact ⟨next, rfl, hholds, htail⟩

/-! ## Waiting for room

Nobody makes room meanwhile: either the first attempt succeeds or all of them are in vain. -/

theorem pushUntil (h : ring.Holds gone queue) (item : α) (readings : Nat) :
    ∃ next, RingBuffer.pushUntil item readings ring =
        .ok ((queue.pushRepeatedly (readings + 1) item).1, next) ∧
      next.Holds gone (queue.pushRepeatedly (readings + 1) item).2 ∧ next.tail = ring.tail := by
  induction readings generalizing ring queue with
  | zero => exact h.push item
  | succ readings ih =>
      obtain ⟨next, hpush, hholds, htail⟩ := h.push item
      simp only [RingBuffer.pushUntil, hpush, ok_bind]
      unfold Queue.push at hholds ⊢
      by_cases hfull : queue.free = 0
      · simp only [hfull, if_true] at hholds ⊢
        obtain ⟨last, hrest, hlast, hkept⟩ := ih hholds
        simp only [Queue.pushRepeatedly, Queue.free_record, hfull, if_true,
          Queue.record_rejected_add] at hrest hlast ⊢
        rw [Nat.add_comm 1] at hlast
        exact ⟨last, hrest, hlast, hkept.trans htail⟩
      · simp only [hfull, if_false] at hholds ⊢
        simp only [Queue.pushRepeatedly, hfull, if_false]
        exact ⟨next, rfl, hholds, htail⟩

theorem pushWithBackoff (h : ring.Holds gone queue) (item : α) :
    ∃ next, ring.pushWithBackoff item = .ok ((queue.pushRepeatedly 12 item).1, next) ∧
      next.Holds gone (queue.pushRepeatedly 12 item).2 ∧ next.tail = ring.tail := by
  rw [RingBuffer.pushWithBackoff, RingBuffer.pushWaiting_eq]
  exact h.pushUntil item 11

end RingBuffer.Holds

theorem Queue.writeRounds_le {reaction : Queue.Reaction α Nat κ} {items : Block α}
    {chunk written : Nat} {memory : κ} {queue : Queue α} (hle : written ≤ items.size)
    {total : Nat} {rest : κ × Queue α}
    (h : queue.writeRounds items chunk reaction written memory = (.returned total, rest)) :
    written ≤ total ∧ total ≤ items.size := by
  fun_induction Queue.writeRounds items chunk reaction written memory queue with
  | case1 written memory queue count hcount =>
      cases h
      omega
  | case2 written memory queue count hcount memory' queue' hrun ih =>
      have hbounds := ih (by omega) h
      omega
  | case3 => cases h

/-! ## Code of the caller in the middle of a write

The window of a lazy insert is sampled before the item is made, so whatever happens meanwhile must
leave the head alone and may only make room. A chunked write samples anew after each callback. -/

def RingBuffer.writeAfter (items : Block α) (chunk : Nat) (onChunk : Callback α Nat κ)
    (written : Nat) (memory : κ) (ring : RingBuffer α) :
    Signal → Checked (Outcome Nat × κ × RingBuffer α)
  | .proceed => ring.writeRounds items chunk onChunk written memory
  | .panic => .ok (.panicked .callback, memory, ring)

theorem writeRounds_end {ring : RingBuffer α} {gone : Nat} {queue : Queue α}
    (h : ring.Holds gone queue) (items : Block α) (chunk : Nat) (onChunk : Callback α Nat κ)
    (written : Nat) (memory : κ)
    (hcount : min (min chunk (items.size - written)) queue.free = 0) :
    ring.writeRounds items chunk onChunk written memory =
      .ok (.returned written, memory, ring) := by
  rw [RingBuffer.writeRounds]
  by_cases hleft : written < items.size
  · simp only [hleft, dif_pos, RingBuffer.producerWindow, h.free_eq, ok_bind,
      subtract_of_le (Nat.le_of_lt hleft)]
    exact dif_pos hcount
  · simp only [hleft, dif_neg, not_false_eq_true]

section callbacks

variable {gone : Nat} {kept : RingBuffer α → τ}
  (hkept : ∀ a b : RingBuffer α, a.tail = b.tail → kept a = kept b)

include hkept

theorem pushWith_tracks {make : Factory α κ} {made : κ → Queue α → Option α × κ × Queue α}
    {memory : κ} {queue : Queue α}
    (hmake : Tracks (fun ring => (ring.head, kept ring)) gone (make memory) queue
      (made memory queue))
    (hroom : queue.free ≤ (made memory queue).2.2.free) :
    Tracks kept gone (fun ring => ring.pushWith make memory) queue
      (queue.pushWith made memory) := by
  intro ring h
  unfold RingBuffer.pushWith Queue.pushWith
  simp only [RingBuffer.producerWindow, h.free_eq, ok_bind]
  by_cases hfull : queue.free = 0
  · simp only [hfull, if_true]
    exact ⟨_, rfl, h.record _, hkept _ _ (RingBuffer.tail_record _ _)⟩
  · simp only [hfull, if_false]
    obtain ⟨mid, hrun, hmid, hcursors⟩ := hmake ring h
    obtain ⟨hhead, hsame⟩ := Prod.mk.inj hcursors
    rw [hrun]
    generalize made memory queue = answer at hmid hroom ⊢
    obtain ⟨item, memory, next⟩ := answer
    cases item with
    | none => exact ⟨mid, rfl, hmid, hsame⟩
    | some item =>
        have hfit : [item].length ≤ next.free := by
          rw [List.length_singleton]
          exact Nat.lt_of_lt_of_le (Nat.pos_of_ne_zero hfull) hroom
        obtain ⟨filled, written, hfill, hpublish, hholds, htail⟩ := hmid.write [item] hfit
        rw [hhead] at hfill hpublish
        rw [List.length_singleton] at hpublish
        simp only [ok_bind, hfill, hpublish]
        exact ⟨written, rfl, hholds, (hkept _ _ htail).trans hsame⟩

/-- One round: the chunk is written and published, and the code of the caller, whatever it is, runs
on the result. -/
theorem writeRound {ring : RingBuffer α} {queue : Queue α} (h : ring.Holds gone queue)
    (items : Block α) (chunk written : Nat) {count : Nat}
    (hmin : min (min chunk (items.size - written)) queue.free = count) (hcount : count ≠ 0) :
    ∃ next, next.Holds gone (queue.append ((items.toList.drop written).take count)) ∧
      kept next = kept ring ∧
      ∀ {κ : Type} (onChunk : Callback α Nat κ) (memory : κ),
        ring.writeRounds items chunk onChunk written memory = (do
          let (signal, memory, left) ← onChunk count memory next
          left.writeAfter items chunk onChunk (written + count) memory signal) := by
  have hleft : written < items.size := by omega
  have hlength : ((items.toList.drop written).take count).length = count := by
    simp
    omega
  obtain ⟨filled, next, hfill, hpublish, hholds, htail⟩ :=
    h.write ((items.toList.drop written).take count) (by omega)
  rw [hlength] at hpublish
  have hslice : items.slice written count = .ok _ := Block.slice_of_le (by omega)
  refine ⟨next, hholds, hkept _ _ htail, ?_⟩
  intro κ onChunk memory
  rw [RingBuffer.writeRounds]
  simp only [hleft, dif_pos, RingBuffer.producerWindow, h.free_eq, ok_bind,
    subtract_of_le (Nat.le_of_lt hleft), hmin, hcount, dif_neg, not_false_eq_true, hslice, hfill,
    hpublish]
  rfl

theorem writeRounds_tracks {onChunk : Callback α Nat κ} {reaction : Queue.Reaction α Nat κ}
    (hreaction : ∀ count memory queue,
      Tracks kept gone (onChunk count memory) queue (reaction count memory queue))
    (items : Block α) (chunk written : Nat) (memory : κ) (queue : Queue α) :
    Tracks kept gone (fun ring => ring.writeRounds items chunk onChunk written memory) queue
      (queue.writeRounds items chunk reaction written memory) := by
  intro ring h
  fun_induction Queue.writeRounds items chunk reaction written memory queue generalizing ring with
  | case1 written memory queue count hcount =>
      exact ⟨ring, writeRounds_end h items chunk onChunk written memory hcount, h, rfl⟩
  | case2 written memory queue count hcount memory' queue' hrun ih =>
      obtain ⟨next, hnext, hsame, hround⟩ := writeRound hkept h items chunk written rfl hcount
      obtain ⟨after, hcall, hafter, hcalled⟩ := hreaction count memory _ next hnext
      rw [hrun] at hcall hafter
      obtain ⟨last, hrest, hlast, hcursor⟩ := ih after hafter
      refine ⟨last, ?_, hlast, hcursor.trans (hcalled.trans hsame)⟩
      change ring.writeRounds items chunk onChunk written memory = _
      rw [hround, hcall]
      exact hrest
  | case3 written memory queue count hcount memory' queue' hrun =>
      obtain ⟨next, hnext, hsame, hround⟩ := writeRound hkept h items chunk written rfl hcount
      obtain ⟨after, hcall, hafter, hcalled⟩ := hreaction count memory _ next hnext
      rw [hrun] at hcall hafter
      refine ⟨after, ?_, hafter, hcalled.trans hsame⟩
      change ring.writeRounds items chunk onChunk written memory = _
      rw [hround, hcall]
      rfl

theorem writeChunked_tracks {onChunk : Callback α Nat κ} {reaction : Queue.Reaction α Nat κ}
    (hreaction : ∀ count memory queue,
      Tracks kept gone (onChunk count memory) queue (reaction count memory queue))
    (items : Block α) (chunk : Nat) (memory : κ) (queue : Queue α) :
    Tracks kept gone (fun ring => ring.writeChunked items chunk onChunk memory) queue
      (queue.writeChunked items chunk reaction memory) := by
  intro ring h
  obtain ⟨next, hrun, hnext, hsame⟩ := writeRounds_tracks hkept hreaction items
    (RingBuffer.chunkLength chunk items.size) 0 memory queue ring h
  have hrun : ring.writeRounds items (RingBuffer.chunkLength chunk items.size) onChunk 0 memory =
    _ := hrun
  simp only [RingBuffer.writeChunked, hrun, ok_bind]
  unfold Queue.writeChunked
  generalize hanswer : queue.writeRounds items (RingBuffer.chunkLength chunk items.size) reaction 0
    memory = answer at hnext ⊢
  obtain ⟨outcome, memory, rest⟩ := answer
  cases outcome with
  | panicked cause => exact ⟨next, rfl, hnext, hsame⟩
  | returned total =>
      have hle := (Queue.writeRounds_le (Nat.zero_le _) hanswer).2
      simp only [ok_bind, subtract_of_le hle]
      refine ⟨_, rfl, hnext.record_rejected _, Eq.trans (hkept _ _ ?_) hsame⟩
      split
      · rfl
      · exact RingBuffer.tail_record _ _

end callbacks

end RingChannel
