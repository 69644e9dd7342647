import RingChannel.RingBuffer.Callback

/-!
# Releasing items

Discarding destroys unread items in place; draining moves them to a handler. Both work through
their window item by item and hand all slots back in one step at the end, also when they are
broken off: the item at which that happens counts as gone. Only a call that ends regularly is
counted. Disposing of a ring destroys all that is unread, and the first destruction that panics
leaves the rest undestroyed.
-/

namespace RingChannel.RingBuffer

variable {α κ : Type}

/-- Destroy `left` items in place from the window at `start` on, `done` of which are gone already.
The answer lists the destroyed items and tells how many are gone then. -/
def destroyRun [Item α] (start : UInt64) :
    (left done : Nat) → RingBuffer α → Checked (Outcome Unit × List α × Nat × RingBuffer α)
  | 0, done, ring => .ok (.returned (), [], done, ring)
  | left + 1, done, ring => do
      let (item, store) ← ring.store.take (ring.slot (start + UInt64.ofNat done))
      let ring := { ring with store := store }
      if Item.explodes item then
        .ok (.panicked .destructor, [item], done + 1, ring)
      else
        let (outcome, destroyed, done, ring) ← destroyRun start left (done + 1) ring
        .ok (outcome, item :: destroyed, done, ring)

def discard [Item α] (count : Nat) (ring : RingBuffer α) :
    Checked (Outcome Nat × List α × RingBuffer α) := do
  let window ← ring.consumerWindow
  let count := min count window.count
  if count = 0 then
    .ok (.returned 0, [], ring)
  else
    let (outcome, destroyed, done, ring) ← destroyRun window.start count 0 ring
    let ring ← ring.publishTail window.start done
    match outcome with
    | .returned _ => .ok (.returned count, destroyed, ring.record (.discarded count))
    | .panicked cause => .ok (.panicked cause, destroyed, ring)

def discardExact [Item α] (count : Nat) (ring : RingBuffer α) :
    Checked (Outcome Bool × List α × RingBuffer α) := do
  let readable ← ring.readable
  if readable < count then
    .ok (.returned false, [], ring)
  else
    let (outcome, destroyed, ring) ← ring.discard count
    .ok (outcome.map (· = count), destroyed, ring)

def clear [Item α] (ring : RingBuffer α) : Checked (Outcome Nat × List α × RingBuffer α) :=
  ring.discard Capacity.wordMax

/-- Hand over `left` items of the window at `start`, `done` of which are gone already. The tail
stays where it is meanwhile, so no slot is reused before the end. -/
def drainRun (handler : Callback α α κ) (window : Window) :
    (left done : Nat) → κ → RingBuffer α → Checked (Outcome Unit × Nat × κ × RingBuffer α)
  | 0, done, memory, ring => .ok (.returned (), done, memory, ring)
  | left + 1, done, memory, ring => do
      ensure (done < window.count) (.unwritten done window.count)
      let (item, store) ← ring.store.take (ring.slot (window.start + UInt64.ofNat done))
      let (signal, memory, ring) ← handler item memory { ring with store := store }
      match signal with
      | .proceed => drainRun handler window left (done + 1) memory ring
      | .panic => .ok (.panicked .callback, done + 1, memory, ring)

/-- Move up to `limit` unread items to the handler, oldest first, and tell how many. -/
def drain (limit : Nat) (handler : Callback α α κ) (memory : κ) (ring : RingBuffer α) :
    Checked (Outcome Nat × κ × RingBuffer α) := do
  let window ← ring.consumerWindow
  let count := min limit window.count
  if count = 0 then
    .ok (.returned 0, memory, ring)
  else
    let (outcome, done, memory, ring) ← drainRun handler window count 0 memory ring
    let ring ← ring.publishTail window.start done
    match outcome with
    | .returned _ => .ok (.returned count, memory, ring.record (.removed count))
    | .panicked cause => .ok (.panicked cause, memory, ring)

/-- Destroy what is unread when the ring itself goes. -/
def dispose [Item α] (ring : RingBuffer α) : Checked (Outcome Unit × List α) := do
  let tail ← Cursor.load .relaxed ring.tail
  let head ← Cursor.load .relaxed ring.head
  let (outcome, destroyed, _, _) ← destroyRun tail (head - tail).toNat 0 ring
  .ok (outcome, destroyed)

end RingChannel.RingBuffer
