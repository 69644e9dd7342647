import RingChannel.RingBuffer.Write

/-!
# The consumer's side

Every read samples the unread window once, moves items out of its slots, oldest first, and hands
the slots back in one step. Looking leaves the items where they are. The chunked form samples a
new window for each chunk, so items inserted by its callback are read as well.
-/

namespace RingChannel.RingBuffer

variable {α κ : Type}

def pop (ring : RingBuffer α) : Checked (Option α × RingBuffer α) := do
  let window ← ring.consumerWindow
  if window.count = 0 then
    .ok (none, ring)
  else
    let (item, store) ← ring.store.take (ring.slot window.start)
    let ring ← publishTail window.start 1 { ring with store := store }
    .ok (some item, ring.record (.removed 1))

/-- Remove the oldest item into `target`, and destroy the item that was there. The new one stays
even if destroying the old one panics. The answer lists what was destroyed. -/
def popInto [Item α] (target : α) (ring : RingBuffer α) :
    Checked (Outcome Bool × α × List α × RingBuffer α) := do
  let (removed, ring) ← ring.pop
  match removed with
  | none => .ok (.returned false, target, [], ring)
  | some item =>
      .ok (if Item.explodes target then .panicked .destructor else .returned true,
        item, [target], ring)

def peekAt (index : Nat) (ring : RingBuffer α) : Checked (Option α) := do
  let window ← ring.consumerWindow
  if window.count ≤ index then
    .ok none
  else
    ensure (index < window.count) (.unwritten index window.count)
    let item ← ring.store.read (ring.slot (window.start + UInt64.ofNat index))
    .ok (some item)

/-- Borrow the unread item `index` places after the oldest one, and run code of the caller while it
is borrowed. Without an item nothing is run. -/
def hold (index : Nat) (body : α → κ → RingBuffer α → Checked (κ × RingBuffer α)) (memory : κ)
    (ring : RingBuffer α) : Checked (Option α × κ × RingBuffer α) := do
  match ← ring.peekAt index with
  | none => .ok (none, memory, ring)
  | some item =>
      let (memory, ring) ← body item memory ring
      .ok (some item, memory, ring)

def readBatch (buffer : Block α) (ring : RingBuffer α) :
    Checked (Nat × Block α × RingBuffer α) := do
  let window ← ring.consumerWindow
  let count := min buffer.size window.count
  if count = 0 then
    .ok (0, buffer, ring)
  else
    let (items, ring) ← ring.takeRun window.start count
    let buffer ← buffer.overwrite 0 items
    let ring ← ring.publishTail window.start count
    .ok (count, buffer, ring.record (.removed count))

def peekBatch (buffer : Block α) (ring : RingBuffer α) : Checked (Nat × Block α) := do
  let window ← ring.consumerWindow
  let count := min buffer.size window.count
  let items ← ring.store.readRun ring.mask window.start count
  let buffer ← buffer.overwrite 0 items
  .ok (count, buffer)

def readExact (buffer : Block α) (ring : RingBuffer α) :
    Checked (Bool × Block α × RingBuffer α) := do
  let readable ← ring.readable
  if readable < buffer.size then
    .ok (false, buffer, ring)
  else
    let (count, buffer, ring) ← ring.readBatch buffer
    .ok (count = buffer.size, buffer, ring)

/-- The rounds of a chunked read after `done` items: one chunk, its slots handed back, and then the
callback. -/
def readRounds (chunk : Nat) (onChunk : Callback α Nat κ) (total done : Nat) (buffer : Block α)
    (memory : κ) (ring : RingBuffer α) : Checked (Outcome Nat × Block α × κ × RingBuffer α) :=
  if _hleft : done < total then do
    let window ← ring.consumerWindow
    let left ← subtract total done
    let count := min (min chunk left) window.count
    if _hcount : count = 0 then
      .ok (.returned done, buffer, memory, ring)
    else
      let (items, ring) ← ring.takeRun window.start count
      let buffer ← buffer.overwrite done items
      let ring ← ring.publishTail window.start count
      let ring := ring.record (.removed count)
      let (signal, memory, ring) ← onChunk count memory ring
      match signal with
      | .proceed => readRounds chunk onChunk total (done + count) buffer memory ring
      | .panic => .ok (.panicked .callback, buffer, memory, ring)
  else .ok (.returned done, buffer, memory, ring)
termination_by total - done
decreasing_by
  exact Nat.sub_lt_sub_left _hleft (Nat.lt_add_of_pos_right (Nat.pos_of_ne_zero _hcount))

/-- Read in chunks, each handed back before the callback is told its length, until the buffer is
full or nothing is readable. -/
def readChunked (buffer : Block α) (chunk : Nat) (onChunk : Callback α Nat κ) (memory : κ)
    (ring : RingBuffer α) : Checked (Outcome Nat × Block α × κ × RingBuffer α) :=
  readRounds (chunkLength chunk buffer.size) onChunk buffer.size 0 buffer memory ring

end RingChannel.RingBuffer
