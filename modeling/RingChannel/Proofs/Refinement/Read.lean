import RingChannel.Proofs.Refinement.Write

/-!
# Reading from a ring is reading from its queue

Each consumer operation, on a ring at rest that holds a queue, ends regularly, answers as the
operation on the queue does, and leaves a ring at rest that holds the resulting queue. The head
stays where it is.
-/

namespace RingChannel

variable {α κ τ : Type}

namespace RingBuffer.Holds

variable {ring : RingBuffer α} {gone : Nat} {queue : Queue α}

/-- Taking a run of items makes the vacant front longer. -/
theorem takeRun (h : ring.Holds gone queue) (count : Nat)
    (hle : gone + count ≤ queue.items.length) :
    ∃ taken, ring.takeRun (ring.tail + UInt64.ofNat gone) count =
        .ok ((queue.items.drop gone).take count, taken) ∧
      taken.Holds (gone + count) queue ∧ taken.head = ring.head ∧ taken.tail = ring.tail := by
  induction count generalizing gone ring with
  | zero => exact ⟨ring, rfl, h, rfl, rfl⟩
  | succ count ih =>
      have hlt : gone < queue.items.length := by omega
      obtain ⟨rest, htake, hrest⟩ := h.take hlt
      obtain ⟨taken, hrun, htaken, hhead, htail⟩ := ih hrest (by omega)
      rw [UInt64.ofNat_add, ← UInt64.add_assoc] at hrun
      refine ⟨taken, ?_, by rwa [Nat.add_right_comm] at htaken, hhead, htail⟩
      unfold RingBuffer.takeRun at hrun ⊢
      rw [bind_eq_ok_iff] at hrun
      obtain ⟨⟨items, store⟩, hstore, hpair⟩ := hrun
      have htake : ring.store.take (Store.slot ring.mask (ring.tail + UInt64.ofNat gone)) =
        .ok (queue.items[gone], rest) := htake
      have hstore : rest.takeRun ring.mask (ring.tail + UInt64.ofNat gone + 1) count =
        .ok (items, store) := hstore
      cases hpair
      simp only [Store.takeRun, htake, hstore, ok_bind]
      rw [List.drop_eq_getElem_cons hlt, List.take_succ_cons]

theorem takeFront (h : ring.Holds 0 queue) {count : Nat} (hle : count ≤ queue.items.length) :
    ∃ taken released, ring.takeRun ring.tail count = .ok (queue.items.take count, taken) ∧
      taken.publishTail ring.tail count = .ok released ∧
      released.Holds 0 (queue.behead count) ∧ released.head = ring.head := by
  obtain ⟨taken, hrun, htaken, hhead, htail⟩ := h.takeRun count (by omega)
  rw [show UInt64.ofNat 0 = 0 from rfl, UInt64.add_zero, List.drop_zero] at hrun
  rw [Nat.zero_add] at htaken
  obtain ⟨released, hback, hreleased, hsame⟩ := htaken.handBack
  rw [htail] at hback
  exact ⟨taken, released, hrun, hback, hreleased, hsame.trans hhead⟩

theorem readRun (h : ring.Holds 0 queue) (count : Nat) {i : Nat}
    (hle : i + count ≤ queue.items.length) :
    ring.store.readRun ring.mask (ring.tail + UInt64.ofNat i) count =
      .ok ((queue.items.drop i).take count) := by
  induction count generalizing i with
  | zero => rfl
  | succ count ih =>
      have hlt : i < queue.items.length := by omega
      have hread : ring.store.read (Store.slot ring.mask (ring.tail + UInt64.ofNat i)) = _ :=
        h.read hlt
      have hrest := ih (i := i + 1) (by omega)
      rw [UInt64.ofNat_add, ← UInt64.add_assoc] at hrest
      have hrest : ring.store.readRun ring.mask (ring.tail + UInt64.ofNat i + 1) count = _ := hrest
      simp only [Store.readRun, hread, hrest, ok_bind]
      rw [List.drop_eq_getElem_cons hlt, List.take_succ_cons]

theorem pop (h : ring.Holds 0 queue) :
    ∃ next, ring.pop = .ok ((queue.pop).1, next) ∧ next.Holds 0 (queue.pop).2 ∧
      next.head = ring.head := by
  unfold RingBuffer.pop Queue.pop
  simp only [consumerWindow_eq, ok_bind, h.live_eq]
  by_cases hempty : queue.items.length = 0
  · have hnil : queue.items = [] := List.length_eq_zero_iff.1 hempty
    rw [if_pos hempty, Queue.remove_of_nil hnil, hnil]
    exact ⟨ring, rfl, h, rfl⟩
  · obtain ⟨rest, htake, hrest⟩ := h.take (Nat.pos_of_ne_zero hempty)
    obtain ⟨released, hback, hreleased, hhead⟩ := hrest.handBack
    rw [show UInt64.ofNat 0 = 0 from rfl, UInt64.add_zero] at htake
    have hone : min 1 queue.items.length = 1 := by omega
    have hback : publishTail ring.tail 1 { ring with store := rest } = .ok released := hback
    simp only [hempty, if_false, htake, hback, ok_bind]
    have hremove : queue.remove 1 = (queue.behead 1).record (.removed 1) := by
      rw [Queue.remove, hone]
    rw [hremove]
    refine ⟨_, ?_, hreleased.record (.removed 1), ?_⟩
    · rw [List.head?_eq_getElem?, List.getElem?_eq_getElem (Nat.pos_of_ne_zero hempty)]
    · rw [head_record, hhead]

theorem popInto [Item α] (h : ring.Holds 0 queue) (target : α) :
    ∃ next, ring.popInto target = .ok ((queue.popInto target).1, (queue.popInto target).2.1,
        (queue.popInto target).2.2.1, next) ∧
      next.Holds 0 (queue.popInto target).2.2.2 ∧ next.head = ring.head := by
  obtain ⟨next, hpop, hholds, hhead⟩ := h.pop
  unfold Queue.pop at hpop hholds
  unfold RingBuffer.popInto Queue.popInto
  simp only [hpop, ok_bind]
  cases hfirst : queue.items.head? with
  | none =>
      rw [Queue.remove_of_nil (List.head?_eq_none_iff.1 hfirst)] at hholds
      exact ⟨next, rfl, hholds, hhead⟩
  | some item => exact ⟨next, rfl, hholds, hhead⟩

theorem peekAt (h : ring.Holds 0 queue) (index : Nat) :
    ring.peekAt index = .ok queue.items[index]? := by
  unfold RingBuffer.peekAt
  simp only [consumerWindow_eq, ok_bind, h.live_eq]
  by_cases hend : queue.items.length ≤ index
  · rw [if_pos hend, List.getElem?_eq_none hend]
  · have hlt : index < queue.items.length := by omega
    rw [if_neg hend, ensure_of hlt, ok_bind, h.read hlt, ok_bind, List.getElem?_eq_getElem hlt]

theorem peekBatch (h : ring.Holds 0 queue) (buffer : Block α) :
    ring.peekBatch buffer = .ok (queue.peekBatch buffer) := by
  have hrun := h.readRun (min buffer.size queue.items.length) (i := 0) (by omega)
  rw [show UInt64.ofNat 0 = 0 from rfl, UInt64.add_zero, List.drop_zero, List.take_eq_take_min,
    Nat.min_assoc, Nat.min_self, ← List.take_eq_take_min] at hrun
  have hfit : 0 + (queue.items.take buffer.size).length ≤ buffer.size := by
    rw [List.length_take]
    omega
  unfold RingBuffer.peekBatch Queue.peekBatch
  simp only [consumerWindow_eq, ok_bind, h.live_eq, hrun, ok_bind, Block.overwrite_of_le hfit]

theorem readBatch (h : ring.Holds 0 queue) (buffer : Block α) :
    ∃ next, ring.readBatch buffer =
        .ok ((queue.readBatch buffer).1, (queue.readBatch buffer).2.1, next) ∧
      next.Holds 0 (queue.readBatch buffer).2.2 ∧ next.head = ring.head := by
  unfold RingBuffer.readBatch Queue.readBatch
  simp only [consumerWindow_eq, ok_bind, h.live_eq]
  rw [← Queue.remove_min queue buffer.size]
  have htake : queue.items.take buffer.size =
      queue.items.take (min buffer.size queue.items.length) := List.take_eq_take_min
  rw [htake]
  generalize hn : min buffer.size queue.items.length = count
  have hle : count ≤ queue.items.length := by omega
  by_cases hzero : count = 0
  · rw [if_pos hzero, hzero, List.take_zero, Block.cover_nil, Queue.remove_zero]
    exact ⟨ring, rfl, h, rfl⟩
  · obtain ⟨taken, released, hrun, hback, hreleased, hhead⟩ := h.takeFront hle
    have hfit : 0 + (queue.items.take count).length ≤ buffer.size := by
      rw [List.length_take]
      omega
    simp only [hzero, if_false, hrun, Block.overwrite_of_le hfit, hback, ok_bind]
    have hremove : queue.remove count = (queue.behead count).record (.removed count) := by
      rw [Queue.remove, Nat.min_eq_left hle]
    rw [hremove]
    exact ⟨_, rfl, hreleased.record _, (head_record _ _).trans hhead⟩

theorem readExact (h : ring.Holds 0 queue) (buffer : Block α) :
    ∃ next, ring.readExact buffer =
        .ok ((queue.readExact buffer).1, (queue.readExact buffer).2.1, next) ∧
      next.Holds 0 (queue.readExact buffer).2.2 ∧ next.head = ring.head := by
  unfold RingBuffer.readExact Queue.readExact
  rw [readable_eq, ok_bind, h.live_eq]
  by_cases hshort : queue.items.length < buffer.size
  · simp only [hshort, if_true]
    exact ⟨ring, rfl, h, rfl⟩
  · obtain ⟨next, hread, hholds, hhead⟩ := h.readBatch buffer
    have hall : min buffer.size queue.items.length = buffer.size := by omega
    simp only [Queue.readBatch, hall] at hread hholds
    simp only [hshort, if_false, hread, ok_bind, Block.size_cover, decide_true]
    exact ⟨next, rfl, hholds, hhead⟩

/-! ## Waiting for an item

Nobody inserts meanwhile: either the first attempt succeeds or none does. -/

theorem popUntil (h : ring.Holds 0 queue) (readings : Nat) :
    ∃ next, RingBuffer.popUntil readings ring = .ok ((queue.pop).1, next) ∧
      next.Holds 0 (queue.pop).2 ∧ next.head = ring.head := by
  induction readings generalizing ring with
  | zero => exact h.pop
  | succ readings ih =>
      obtain ⟨next, hpop, hholds, hhead⟩ := h.pop
      simp only [RingBuffer.popUntil, hpop, ok_bind]
      cases hfirst : (queue.pop).1 with
      | some item => exact ⟨next, rfl, hholds, hhead⟩
      | none =>
          rw [Queue.pop_of_empty hfirst] at hholds
          obtain ⟨last, hrest, hlast, hsame⟩ := ih hholds
          rw [hfirst] at hrest
          exact ⟨last, hrest, hlast, hsame.trans hhead⟩

theorem popWithBackoff (h : ring.Holds 0 queue) :
    ∃ next, ring.popWithBackoff = .ok ((queue.pop).1, next) ∧ next.Holds 0 (queue.pop).2 ∧
      next.head = ring.head := by
  rw [RingBuffer.popWithBackoff, RingBuffer.popWaiting_eq]
  exact h.popUntil 11

end RingBuffer.Holds

/-! ## Code of the caller in the middle of a read -/

section callbacks

variable {gone : Nat} {kept : RingBuffer α → τ}

theorem hold_tracks {body : α → κ → RingBuffer α → Checked (κ × RingBuffer α)}
    {effect : α → κ → Queue α → κ × Queue α} {memory : κ} {queue : Queue α}
    (hbody : ∀ item ring, ring.Holds 0 queue → ∃ next,
      body item memory ring = .ok ((effect item memory queue).1, next) ∧
        next.Holds 0 (effect item memory queue).2 ∧ kept next = kept ring) (index : Nat) :
    Tracks kept 0 (fun ring => ring.hold index body memory) queue
      (queue.hold index effect memory) := by
  intro ring h
  unfold RingBuffer.hold Queue.hold
  simp only [h.peekAt, ok_bind]
  cases queue.items[index]? with
  | none => exact ⟨ring, rfl, h, rfl⟩
  | some item =>
      obtain ⟨next, hrun, hnext, hsame⟩ := hbody item ring h
      simp only [hrun, ok_bind]
      exact ⟨next, rfl, hnext, hsame⟩

/-- What is left of a chunked read once its callback has ended with `signal`. -/
def RingBuffer.readAfter (chunk : Nat) (onChunk : Callback α Nat κ) (total done : Nat)
    (buffer : Block α) (memory : κ) (ring : RingBuffer α) :
    Signal → Checked (Outcome Nat × Block α × κ × RingBuffer α)
  | .proceed => ring.readRounds chunk onChunk total done buffer memory
  | .panic => .ok (.panicked .callback, buffer, memory, ring)

theorem readRounds_end {ring : RingBuffer α} {queue : Queue α} (h : ring.Holds 0 queue)
    (chunk : Nat) (onChunk : Callback α Nat κ) (total done : Nat) (buffer : Block α) (memory : κ)
    (hcount : min (min chunk (total - done)) queue.items.length = 0) :
    ring.readRounds chunk onChunk total done buffer memory =
      .ok (.returned done, buffer, memory, ring) := by
  rw [RingBuffer.readRounds]
  by_cases hleft : done < total
  · simp only [hleft, dif_pos, RingBuffer.consumerWindow_eq, h.live_eq, ok_bind,
      subtract_of_le (Nat.le_of_lt hleft)]
    exact dif_pos hcount
  · simp only [hleft, dif_neg, not_false_eq_true]

variable (hkept : ∀ a b : RingBuffer α, a.head = b.head → kept a = kept b)

include hkept

/-- One round: the chunk is moved out and handed back, and the code of the caller, whatever it is,
runs on the result. -/
theorem readRound {ring : RingBuffer α} {queue : Queue α} (h : ring.Holds 0 queue)
    (chunk total done : Nat) (buffer : Block α) (hsize : buffer.size = total) {count : Nat}
    (hmin : min (min chunk (total - done)) queue.items.length = count) (hcount : count ≠ 0) :
    ∃ next, next.Holds 0 (queue.remove count) ∧ kept next = kept ring ∧
      ∀ {κ : Type} (onChunk : Callback α Nat κ) (memory : κ),
        ring.readRounds chunk onChunk total done buffer memory = (do
          let (signal, memory, left) ← onChunk count memory next
          left.readAfter chunk onChunk total (done + count)
            (buffer.cover done (queue.items.take count)) memory signal) := by
  have hleft : done < total := by omega
  have hle : count ≤ queue.items.length := by omega
  obtain ⟨taken, released, hrun, hback, hreleased, hhead⟩ := h.takeFront hle
  have hfit : done + (queue.items.take count).length ≤ buffer.size := by
    rw [List.length_take]
    omega
  have hremove : queue.remove count = (queue.behead count).record (.removed count) := by
    rw [Queue.remove, Nat.min_eq_left hle]
  rw [hremove]
  refine ⟨_, hreleased.record _, hkept _ _ ((RingBuffer.head_record _ _).trans hhead), ?_⟩
  intro κ onChunk memory
  rw [RingBuffer.readRounds]
  simp only [hleft, dif_pos, RingBuffer.consumerWindow_eq, h.live_eq, ok_bind,
    subtract_of_le (Nat.le_of_lt hleft), hmin, hcount, dif_neg, not_false_eq_true, hrun,
    Block.overwrite_of_le hfit, hback]
  rfl

theorem readRounds_tracks {onChunk : Callback α Nat κ} {reaction : Queue.Reaction α Nat κ}
    (hreaction : ∀ count memory queue,
      Tracks kept 0 (onChunk count memory) queue (reaction count memory queue))
    (chunk total done : Nat) (buffer : Block α) (hsize : buffer.size = total) (memory : κ)
    (queue : Queue α) {ring : RingBuffer α} (h : ring.Holds 0 queue) :
    ∃ next, ring.readRounds chunk onChunk total done buffer memory =
        .ok ((queue.readRounds chunk reaction total done buffer memory).1,
          (queue.readRounds chunk reaction total done buffer memory).2.1,
          (queue.readRounds chunk reaction total done buffer memory).2.2.1, next) ∧
      next.Holds 0 (queue.readRounds chunk reaction total done buffer memory).2.2.2 ∧
      kept next = kept ring := by
  fun_induction Queue.readRounds chunk reaction total done buffer memory queue
    generalizing ring with
  | case1 done buffer memory queue count hcount =>
      exact ⟨ring, readRounds_end h chunk onChunk total done buffer memory hcount, h, rfl⟩
  | case2 =>
      rename_i done buffer memory queue count hcount buffer' memory' queue' hrun ih
      obtain ⟨next, hnext, hsame, hround⟩ :=
        readRound hkept h chunk total done buffer hsize rfl hcount
      obtain ⟨after, hcall, hafter, hcalled⟩ := hreaction count memory _ next hnext
      rw [hrun] at hcall hafter
      obtain ⟨last, hrest, hlast, hcursor⟩ := ih hsize hafter
      refine ⟨last, ?_, hlast, hcursor.trans (hcalled.trans hsame)⟩
      rw [hround, hcall]
      exact hrest
  | case3 =>
      rename_i done buffer memory queue count hcount buffer' memory' queue' hrun
      obtain ⟨next, hnext, hsame, hround⟩ :=
        readRound hkept h chunk total done buffer hsize rfl hcount
      obtain ⟨after, hcall, hafter, hcalled⟩ := hreaction count memory _ next hnext
      rw [hrun] at hcall hafter
      refine ⟨after, ?_, hafter, hcalled.trans hsame⟩
      rw [hround, hcall]
      rfl

theorem readChunked_tracks {onChunk : Callback α Nat κ} {reaction : Queue.Reaction α Nat κ}
    (hreaction : ∀ count memory queue,
      Tracks kept 0 (onChunk count memory) queue (reaction count memory queue))
    (buffer : Block α) (chunk : Nat) (memory : κ) {ring : RingBuffer α} {queue : Queue α}
    (h : ring.Holds 0 queue) :
    ∃ next, ring.readChunked buffer chunk onChunk memory =
        .ok ((queue.readChunked buffer chunk reaction memory).1,
          (queue.readChunked buffer chunk reaction memory).2.1,
          (queue.readChunked buffer chunk reaction memory).2.2.1, next) ∧
      next.Holds 0 (queue.readChunked buffer chunk reaction memory).2.2.2 ∧
      kept next = kept ring :=
  readRounds_tracks hkept hreaction _ _ _ _ rfl memory queue h

end callbacks

end RingChannel
