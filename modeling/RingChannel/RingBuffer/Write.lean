import RingChannel.Block
import RingChannel.RingBuffer.Callback

/-!
# The producer's side

Every write samples the free window once, moves items into its slots and publishes them in one step.
What does not fit is refused and counted as such, except by the form that writes all or nothing. The
chunked form samples a new window for each chunk, so room made by its callback is used.
-/

namespace RingChannel.RingBuffer

variable {α κ : Type}

/-- Insert one item, or hand it back if no slot is free. -/
def push (item : α) (ring : RingBuffer α) : Checked (Option α × RingBuffer α) := do
  let window ← ring.producerWindow
  if window.count = 0 then
    .ok (some item, ring.record (.rejected 1))
  else
    let ring ← ring.fill window.start [item]
    let ring ← ring.publishHead window.start 1
    .ok (none, ring)

/-- Insert one item that is made only when a slot is free. The answer tells whether it was
inserted. If making it panics, nothing is published. -/
def pushWith (make : Factory α κ) (memory : κ) (ring : RingBuffer α) :
    Checked (Outcome Bool × κ × RingBuffer α) := do
  let window ← ring.producerWindow
  if window.count = 0 then
    .ok (.returned false, memory, ring.record (.rejected 1))
  else
    let (made, memory, ring) ← make memory ring
    match made with
    | none => .ok (.panicked .callback, memory, ring)
    | some item =>
        let ring ← ring.fill window.start [item]
        let ring ← ring.publishHead window.start 1
        .ok (.returned true, memory, ring)

def writeBatch (items : Block α) (ring : RingBuffer α) : Checked (Nat × RingBuffer α) := do
  let window ← ring.producerWindow
  let count := min items.size window.count
  let refused ← subtract items.size count
  let ring := if refused = 0 then ring else ring.record (.rejected refused)
  if count = 0 then
    .ok (0, ring)
  else
    let accepted ← items.slice 0 count
    let ring ← ring.fill window.start accepted
    let ring ← ring.publishHead window.start count
    .ok (count, ring)

/-- The length of a chunk: zero stands for all of the batch. -/
def chunkLength (chunk total : Nat) : Nat :=
  if chunk = 0 then total else chunk

/-- The rounds of a chunked write after `written` items: one chunk, published, and then the
callback. -/
def writeRounds (items : Block α) (chunk : Nat) (onChunk : Callback α Nat κ) (written : Nat)
    (memory : κ) (ring : RingBuffer α) : Checked (Outcome Nat × κ × RingBuffer α) :=
  if _hleft : written < items.size then do
    let window ← ring.producerWindow
    let left ← subtract items.size written
    let count := min (min chunk left) window.count
    if _hcount : count = 0 then
      .ok (.returned written, memory, ring)
    else
      let accepted ← items.slice written count
      let ring ← ring.fill window.start accepted
      let ring ← ring.publishHead window.start count
      let (signal, memory, ring) ← onChunk count memory ring
      match signal with
      | .proceed => writeRounds items chunk onChunk (written + count) memory ring
      | .panic => .ok (.panicked .callback, memory, ring)
  else .ok (.returned written, memory, ring)
termination_by items.size - written
decreasing_by
  exact Nat.sub_lt_sub_left _hleft (Nat.lt_add_of_pos_right (Nat.pos_of_ne_zero _hcount))

/-- Write in chunks, each published before the callback is told its length, until all is written
or no slot is free. -/
def writeChunked (items : Block α) (chunk : Nat) (onChunk : Callback α Nat κ) (memory : κ)
    (ring : RingBuffer α) : Checked (Outcome Nat × κ × RingBuffer α) := do
  let (outcome, memory, ring) ←
    writeRounds items (chunkLength chunk items.size) onChunk 0 memory ring
  match outcome with
  | .panicked cause => .ok (.panicked cause, memory, ring)
  | .returned written =>
      let refused ← subtract items.size written
      .ok (.returned written, memory,
        if refused = 0 then ring else ring.record (.rejected refused))

def writeAll (items : Block α) (ring : RingBuffer α) : Checked (Bool × RingBuffer α) := do
  let free ← ring.free
  if free < items.size then
    .ok (false, ring)
  else
    let (count, ring) ← ring.writeBatch items
    .ok (count = items.size, ring)

end RingChannel.RingBuffer
