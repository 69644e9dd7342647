import RingChannel.Proofs.Refinement.Listening
import RingChannel.Proofs.Resemblance

/-!
# The ways to read agree

A consumer can take items one by one, read them into a buffer at once or in chunks, have them handed
to a handler, look at them first, or discard them. With nobody in between it comes to the same: it
gets the oldest items that are unread, in order, and the ring is the one without them. Discarding
only counts them differently.
-/

namespace RingChannel

variable {α κ : Type}

namespace RingBuffer

def popTimes : Nat → RingBuffer α → Checked (List α × RingBuffer α)
  | 0, ring => .ok ([], ring)
  | n + 1, ring => do
      let (item, ring) ← ring.pop
      let (items, ring) ← popTimes n ring
      .ok (item.toList ++ items, ring)

namespace Holds

variable {ring : RingBuffer α} {queue : Queue α}

theorem popTimes (h : ring.Holds 0 queue) (n : Nat) :
    ∃ next, ring.popTimes n = .ok (queue.items.take n, next) ∧ next.Holds 0 (queue.remove n) ∧
      next.head = ring.head := by
  induction n generalizing ring queue with
  | zero =>
      refine ⟨ring, rfl, ?_, rfl⟩
      rw [Queue.remove_zero]
      exact h
  | succ n ih =>
      rcases h.pop with ⟨mid, hpop, hmid, hmidHead⟩
      rcases ih hmid with ⟨next, hrest, hnext, hhead⟩
      have hitems : queue.items.head?.toList ++ (queue.items.drop 1).take n =
          queue.items.take (n + 1) := by
        cases queue.items with
        | nil => simp
        | cons item rest => rfl
      rw [Queue.pop, Queue.items_remove] at hrest
      rw [Queue.pop, Queue.remove_remove, Nat.add_comm] at hnext
      refine ⟨next, ?_, hnext, hhead.trans hmidHead⟩
      simp only [RingBuffer.popTimes, hpop, hrest, Queue.pop, ok_bind, hitems]

/-- Taken out uncounted and then counted as removed, the oldest items are removed. -/
theorem takeOldest_removed (h : ring.Holds 0 queue) (n : Nat) :
    ∃ released, ring.takeOldest (min n queue.items.length) = .ok (queue.items.take n, released) ∧
      released.Holds 0 (queue.behead (min n queue.items.length)) ∧
      (released.record (.removed (min n queue.items.length))).Holds 0 (queue.remove n) ∧
      released.head = ring.head := by
  rcases h.takeFront (Nat.min_le_right n queue.items.length) with
    ⟨taken, released, htake, hback, hreleased, hhead⟩
  refine ⟨released, ?_, hreleased, ?_, hhead⟩
  · simp only [RingBuffer.takeOldest, htake, hback, ok_bind, ← List.take_eq_take_min]
  · rw [← Queue.behead_record_removed]
    exact hreleased.record _

end Holds

end RingBuffer

theorem Block.toList_filled (buffer : Block α) (items : List α) :
    (buffer.cover 0 (items.take buffer.size)).toList =
      items.take buffer.size ++ buffer.toList.drop (min buffer.size items.length) := by
  rw [toList_cover_zero (List.length_take_le _ _), List.length_take]

variable [Item α]

namespace RingBuffer

namespace Holds

variable {ring : RingBuffer α} {queue : Queue α}

theorem buffers_agree (h : ring.Holds 0 queue) (buffer : Block α) (chunk : Nat)
    (note : κ → Nat → κ) (memory : κ) (face : Face) (interlude : Interlude α) :
    let count := min buffer.size queue.items.length
    ∃ filled read chunked,
      filled.toList = queue.items.take buffer.size ++ buffer.toList.drop count ∧
      ring.readBatch buffer = .ok (count, filled, read) ∧
      (read.Holds 0 (queue.remove buffer.size) ∧ read.head = ring.head) ∧
      ring.readChunked buffer chunk (.listening note) memory =
        .ok (.returned count, filled,
          (splits (chunkLength chunk buffer.size) count).foldl note memory, chunked) ∧
      (chunked.Holds 0 (queue.remove buffer.size) ∧ chunked.head = ring.head) ∧
      ConsumerCall.perform face interlude ring (.peekBatch buffer) =
        .ok (.plain (.readBatch count filled), ring) := by
  intro count
  rcases h.readBatch buffer with ⟨read, hread, hreadHolds, hreadHead⟩
  rcases h.readChunked_listening buffer chunk note memory with
    ⟨chunked, hchunk, hchunked, hchunkedHead⟩
  refine ⟨_, read, chunked, buffer.toList_filled queue.items, hread, ⟨hreadHolds, hreadHead⟩,
    hchunk, ⟨hchunked, hchunkedHead⟩, ?_⟩
  simp only [ConsumerCall.perform, h.peekBatch, ok_bind]
  rfl

theorem discard_agrees (h : ring.Holds 0 queue) (n : Nat) {released : RingBuffer α}
    (hreleased : released.Holds 0 (queue.behead (min n queue.items.length)))
    (hhead : released.head = ring.head) :
    ∃ outcome destroyed dropped, ring.discard n = .ok (outcome, destroyed, dropped) ∧
      ((∀ item ∈ queue.items.take n, Item.explodes item = false) →
        outcome = .returned (min n queue.items.length) ∧ destroyed = queue.items.take n ∧
          dropped.Agrees (released.record (.discarded (min n queue.items.length)))) ∧
      ((∃ item ∈ queue.items.take n, Item.explodes item = true) →
        outcome = .panicked .destructor) := by
  rcases h.discard n with ⟨dropped, hdiscard, hdropped, hdroppedHead⟩
  refine ⟨_, _, dropped, hdiscard, ?_, ?_⟩
  · intro hsafe
    rw [Queue.discard_of_safe hsafe] at hdropped ⊢
    refine ⟨rfl, rfl, ?_⟩
    apply hdropped.agrees_of_head (hreleased.record _)
    rw [head_record, hhead, hdroppedHead]
  · rintro ⟨item, hitem, hexplodes⟩
    exact Queue.panicked_discard hitem hexplodes

theorem perform_peekAt (h : ring.Holds 0 queue) (face : Face) (interlude : Interlude α)
    (index : Nat) :
    ConsumerCall.perform face interlude ring (.peekAt index) =
      .ok (.plain (.seen queue.items[index]?), ring) := by
  simp only [ConsumerCall.perform, h.peekAt, ok_bind]

end Holds

/-- The oldest `n` unread items are got alike in all ways, and all of them leave the same slots,
cursors and counters: those without the items, which are counted as removed. A buffer keeps what is
behind them. Looking gets the same items and leaves the ring as it is. A discard differs in counting
them as discarded; it is broken off if one of them goes off, but items that can be copied into a
buffer never do. -/
theorem read_paths_agree {σ : Type} {ring : RingBuffer α} (h : ring.Invariant 0) (n chunk : Nat)
    (hear : σ → α → σ) (heard : σ) (note : κ → Nat → κ) (memory : κ) (face : Face)
    (interlude : Interlude α) :
    let items := ring.contents.take n
    let count := min n ring.length
    let counted := fun counters : Counters =>
      if ring.config.metered then counters else ring.counters
    let removed := counted
      { ring.counters with removed := ring.counters.removed + UInt64.ofNat count }
    let discarded := counted
      { ring.counters with discarded := ring.counters.discarded + UInt64.ofNat count }
    ∃ released popped drained outcome destroyed dropped,
      items.length = count ∧ ring.takeOldest count = .ok (items, released) ∧
      let after := { released with counters := removed }
      (ring.popTimes n = .ok (items, popped) ∧ popped.Agrees after) ∧
      (ring.drain n (.listening hear) heard =
        .ok (.returned count, items.foldl hear heard, drained) ∧ drained.Agrees after) ∧
      (∀ buffer : Block α, buffer.size = n → ∃ filled read chunked,
        filled.toList = items ++ buffer.toList.drop count ∧
        (ring.readBatch buffer = .ok (count, filled, read) ∧ read.Agrees after) ∧
        (ring.readChunked buffer chunk (.listening note) memory =
          .ok (.returned count, filled, (splits (chunkLength chunk n) count).foldl note memory,
            chunked) ∧ chunked.Agrees after) ∧
        ConsumerCall.perform face interlude ring (.peekBatch buffer) =
          .ok (.plain (.readBatch count filled), ring)) ∧
      (∀ i (hi : i < items.length), ConsumerCall.perform face interlude ring (.peekAt i) =
        .ok (.plain (.seen items[i]), ring)) ∧
      (∀ i, ring.length ≤ i → ConsumerCall.perform face interlude ring (.peekAt i) =
        .ok (.plain (.seen none), ring)) ∧
      ring.discard n = .ok (outcome, destroyed, dropped) ∧
      ((∀ item ∈ items, Item.explodes item = false) →
        outcome = .returned count ∧ destroyed = items ∧
          dropped.Agrees { released with counters := discarded }) ∧
      ((∃ item ∈ items, Item.explodes item = true) → outcome = .panicked .destructor) := by
  intro items count counted removed discarded
  have hring := h.holds
  have hcount : min n ring.queue.items.length = count := by
    rw [← hring.length_eq]
  have hlength : items.length = count := by
    rw [List.length_take, ← hcount]
    rfl
  rcases hring.takeOldest_removed n with ⟨released, htake, hreleased, hafter, hhead⟩
  rcases hring.popTimes n with ⟨popped, hpop, hpopped, hpoppedHead⟩
  rcases hring.drain_listening n hear heard with ⟨drained, hdrain, hdrained, hdrainedHead⟩
  rcases hring.discard_agrees n hreleased hhead with
    ⟨outcome, destroyed, dropped, hdiscard, hsafe, hbroken⟩
  -- nothing is counted before the slots have been handed back
  have hmetered : released.config.metered = ring.config.metered := hreleased.metered_eq
  have hcounters : released.counters = ring.counters := hreleased.counters_eq
  rw [hcount] at htake hafter hdrain hsafe
  rw [record_eq, hmetered, hcounters] at hafter hsafe
  have hagrees : ∀ {other : RingBuffer α}, other.Holds 0 (ring.queue.remove n) →
      other.head = ring.head → other.Agrees { released with counters := removed } := by
    intro other hother hsame
    apply hother.agrees_of_head hafter
    rw [hsame, ← hhead]
  refine ⟨released, popped, drained, outcome, destroyed, dropped, hlength, htake,
    ⟨hpop, hagrees hpopped hpoppedHead⟩, ⟨hdrain, hagrees hdrained hdrainedHead⟩, ?_, ?_, ?_,
    hdiscard, hsafe, hbroken⟩
  · rintro buffer rfl
    have hbuffers := hring.buffers_agree buffer chunk note memory face interlude
    rw [hcount] at hbuffers
    rcases hbuffers with ⟨filled, read, chunked, hfilled, hread, ⟨hreadHolds, hreadHead⟩, hchunk,
      ⟨hchunked, hchunkedHead⟩, hpeek⟩
    exact ⟨filled, read, chunked, hfilled, ⟨hread, hagrees hreadHolds hreadHead⟩,
      ⟨hchunk, hagrees hchunked hchunkedHead⟩, hpeek⟩
  · intro i hi
    have hseen : ring.contents[i]? = some items[i] := by
      rw [← List.getElem?_eq_getElem hi, List.getElem?_take_of_lt]
      exact Nat.lt_of_lt_of_le hi (List.length_take_le n ring.contents)
    rw [hring.perform_peekAt, ← hseen]
    rfl
  · intro i hi
    rw [hring.length_eq] at hi
    rw [hring.perform_peekAt, List.getElem?_eq_none hi]

/-- Three items in a ring whose cursors wrap after the first, the last of them a bomb. Five are
asked for, in chunks of two, and there are three. A discard of two destroys the first two; one of
five goes off. -/
theorem read_paths_agree_wrapping :
    let fresh : RingBuffer Tracked :=
      ⟨18446744073709551615, 18446744073709551615, 3, .empty 4, .counting, .zero⟩
    let batch : Block Tracked := .ofArray #[⟨1, false⟩, ⟨2, false⟩, ⟨3, true⟩]
    let items : List Tracked := [⟨1, false⟩, ⟨2, false⟩, ⟨3, true⟩]
    let buffer : Block Tracked := .replicate 5 ⟨0, false⟩
    ∃ ring released popped drained filled read chunked,
      fresh.writeBatch batch = .ok (3, ring) ∧ ring.Invariant 0 ∧
      ring.takeOldest 3 = .ok (items, released) ∧
      let after := { released with counters := ⟨3, 3, 0, 0, 0⟩ }
      ring.popTimes 5 = .ok (items, popped) ∧ popped.Agrees after ∧
      ring.drain 5 (.listening fun heard item => heard ++ [item]) [] =
        .ok (.returned 3, items, drained) ∧ drained.Agrees after ∧
      filled.toList = items ++ [⟨0, false⟩, ⟨0, false⟩] ∧
      ring.readBatch buffer = .ok (3, filled, read) ∧ read.Agrees after ∧
      ring.readChunked buffer 2 (.listening fun told n => told ++ [n]) [] =
        .ok (.returned 3, filled, [2, 1], chunked) ∧ chunked.Agrees after ∧
      (∃ destroyed left, ring.discard 5 = .ok (.panicked .destructor, destroyed, left)) ∧
      ∃ earlier dropped, ring.takeOldest 2 = .ok ([⟨1, false⟩, ⟨2, false⟩], earlier) ∧
        ring.discard 2 = .ok (.returned 2, [⟨1, false⟩, ⟨2, false⟩], dropped) ∧
        dropped.Agrees { earlier with counters := ⟨3, 0, 2, 0, 0⟩ } := by
  intro fresh batch items buffer
  have hfresh : create 64 4 .counting 18446744073709551615 = .ok fresh := rfl
  rcases (holds_of_create hfresh).writeBatch batch with ⟨ring, hwrite, hring, -⟩
  have hsound : ring.Invariant 0 := hring.invariant
  have hcontents : ring.contents = items := hring.contents_eq
  have hlength : ring.length = 3 := hring.length_eq
  have hmetered : ring.config.metered = true := hring.metered_eq
  have hcounters : ring.counters = ⟨3, 0, 0, 0, 0⟩ := hring.counters_eq
  have hfive := read_paths_agree hsound 5 2 (fun heard item => heard ++ [item]) ([] : List Tracked)
    (fun told n => told ++ [n]) ([] : List Nat) .bare .quiet
  have htwo := read_paths_agree hsound 2 2 (fun heard item => heard ++ [item]) ([] : List Tracked)
    (fun told n => told ++ [n]) ([] : List Nat) .bare .quiet
  simp only [hcontents, hlength, hmetered, hcounters, if_true] at hfive htwo
  rcases hfive with ⟨released, popped, drained, _, destroyed, left, -, htake, ⟨hpop, hpopped⟩,
    ⟨hdrain, hdrained⟩, hbuffers, -, -, hbroken, -, hpanic⟩
  rcases htwo with ⟨earlier, _, _, _, _, dropped, -, htwo, -, -, -, -, -, hdiscard, hsafe, -⟩
  rcases hbuffers buffer rfl with
    ⟨filled, read, chunked, hfilled, ⟨hread, hreadAgrees⟩, ⟨hchunk, hchunked⟩, -⟩
  cases hpanic ⟨⟨3, true⟩, by decide, rfl⟩
  rcases hsafe (by decide) with ⟨rfl, rfl, hdropped⟩
  exact ⟨ring, released, popped, drained, filled, read, chunked, hwrite, hsound, htake, hpop,
    hpopped, hdrain, hdrained, hfilled, hread, hreadAgrees, hchunk, hchunked,
    ⟨destroyed, left, hbroken⟩, earlier, dropped, htwo, hdiscard, hdropped⟩

end RingBuffer

end RingChannel
