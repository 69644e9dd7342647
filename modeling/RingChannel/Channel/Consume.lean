import RingChannel.Channel.Produce
import RingChannel.RingBuffer.Release

/-!
# Consumer calls

A call of the consumer, with what its caller does on the producer's side meanwhile, turned into an
answer. No consumer call replaces the store.
-/

namespace RingChannel

namespace ConsumerCall

variable {α : Type} [Item α]

/-- Clearing is reported, unless it was broken off. -/
def clearedEvents : Outcome Nat → List Event
  | .returned count => [.cleared count]
  | .panicked _ => []

def perform (face : Face) (interlude : Interlude α) (ring : RingBuffer α) :
    ConsumerCall α → Checked (Performed α × RingBuffer α)
  | .remove => do
      let (item, ring) ← ring.pop
      .ok (.plain (.removed item), ring)
  | .removeWithBackoff => do
      let (item, ring) ← ring.popWithBackoff
      .ok (.plain (.removed item), ring)
  | .removeUntil readings => do
      let (item, ring) ← RingBuffer.popUntil readings ring
      .ok (.plain (.removed item), ring)
  | .removeInto target => do
      let (outcome, target, destroyed, ring) ← ring.popInto target
      .ok (⟨.removedInto outcome target, destroyed, [], []⟩, ring)
  | .peek => do
      let item ← ring.peekAt 0
      .ok (.plain (.seen item), ring)
  | .peekAt index => do
      let item ← ring.peekAt index
      .ok (.plain (.seen item), ring)
  | .hold index => do
      let (item, journal, ring) ← ring.hold index (interlude.invoke face) .empty
      .ok (⟨.held item, [], [], journal.nested.toList⟩, ring)
  | .discard count => do
      let (outcome, destroyed, ring) ← ring.discard count
      .ok (⟨.discarded outcome, destroyed, [], []⟩, ring)
  | .discardExact count => do
      let (outcome, destroyed, ring) ← ring.discardExact count
      .ok (⟨.discardedExact outcome, destroyed, [], []⟩, ring)
  | .clear => do
      let (outcome, destroyed, ring) ← ring.clear
      .ok (⟨.discarded outcome, destroyed, clearedEvents outcome, []⟩, ring)
  | .drain limit panicAt => do
      let (outcome, journal, ring) ← ring.drain limit (interlude.callback face panicAt) .empty
      .ok (⟨.drained outcome journal.told.toList, [], [], journal.nested.toList⟩, ring)
  | .readBatch buffer => do
      let (count, buffer, ring) ← ring.readBatch buffer
      .ok (.plain (.readBatch count buffer), ring)
  | .peekBatch buffer => do
      let (count, buffer) ← ring.peekBatch buffer
      .ok (.plain (.readBatch count buffer), ring)
  | .readExact buffer => do
      let (done, buffer, ring) ← ring.readExact buffer
      .ok (.plain (.readExact done buffer), ring)
  | .readChunked buffer chunk panicAt => do
      let (outcome, buffer, journal, ring) ←
        ring.readChunked buffer chunk (interlude.callback face panicAt) .empty
      .ok (⟨.readChunks outcome journal.told.toList buffer, [], [], journal.nested.toList⟩, ring)
  | .observe => do
      let observation ← face.observe .consumer ring
      .ok (.plain (.observed observation), ring)

end ConsumerCall

namespace Channel

variable {α : Type} [Item α]

def consume (interlude : Interlude α) (call : ConsumerCall α) (channel : Channel α) :
    Checked (Performed α × Channel α) := do
  let (performed, ring) ← call.perform channel.face interlude channel.ring
  .ok (performed, { channel with ring := ring })

def consumeInside (face : Face) (call : ConsumerCall α) (ring : RingBuffer α) :
    Checked (Answer α × RingBuffer α) := do
  let (performed, ring) ← call.perform face .quiet ring
  let observation ← face.observe .consumer ring
  .ok (performed.answer observation.status, ring)

end Channel

end RingChannel
