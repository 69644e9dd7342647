import RingChannel.Channel.Basic
import RingChannel.Channel.Interlude
import RingChannel.Growable
import RingChannel.RingBuffer.Waiting

/-!
# Producer calls

A call of the producer, with what its caller does on the consumer's side meanwhile, turned into an
answer. On a ring that refuses, a call writes what fits; on a growable one it first makes room.
-/

namespace RingChannel

/-- The answer to a call before the state is looked at, with the answers that its caller got
inside. -/
structure Performed (α : Type) where
  reply : Reply α
  destroyed : List α
  events : List Event
  nested : List (Nat × List (Answer α))

namespace Performed

variable {α : Type}

def plain (reply : Reply α) : Performed α :=
  ⟨reply, [], [], []⟩

def answer (performed : Performed α) (status : Status) : Answer α :=
  ⟨performed.reply, status, performed.destroyed, performed.events⟩

end Performed

namespace ProducerCall

variable {α : Type} [Item α]

def onBounded (face : Face) (interlude : Interlude α) (ring : RingBuffer α) :
    ProducerCall α → Checked (Performed α × RingBuffer α)
  | .insert item => do
      let (rejected, ring) ← ring.push item
      .ok (.plain (.inserted rejected), ring)
  | .insertWith item panicAt => do
      let (outcome, journal, ring) ← ring.pushWith (interlude.factory face panicAt item) .empty
      .ok (⟨.made outcome journal.told.size, [], [], journal.nested.toList⟩, ring)
  | .insertWithBackoff item => do
      let (rejected, ring) ← ring.pushWithBackoff item
      .ok (.plain (.inserted rejected), ring)
  | .insertUntil item readings => do
      let (rejected, ring) ← ring.pushUntil item readings
      .ok (.plain (.inserted rejected), ring)
  | .writeBatch items => do
      let (count, ring) ← ring.writeBatch items
      .ok (.plain (.wrote count), ring)
  | .writeChunked items chunk panicAt => do
      let (outcome, journal, ring) ←
        ring.writeChunked items chunk (interlude.callback face panicAt) .empty
      .ok (⟨.wroteChunks outcome journal.told.toList, [], [], journal.nested.toList⟩, ring)
  | .writeAll items => do
      let (done, ring) ← ring.writeAll items
      .ok (.plain (.wroteAll done), ring)
  | .observe => do
      let observation ← face.observe .producer ring
      .ok (.plain (.observed observation), ring)

def onGrowable (limit : Nat) (interlude : Interlude α) (growable : Growable α) :
    ProducerCall α → Checked (Performed α × Growable α)
  | .insert item => do
      let written ← Growable.insert limit item (.now growable)
      .ok (⟨.insertedGrowing written.result, [], written.events, []⟩, written.growable)
  | .writeBatch items => do
      let written ← Growable.writeBatch limit items (.now growable)
      .ok (⟨.wroteGrowing written.result, [], written.events, []⟩, written.growable)
  | .writeChunked items chunk panicAt => do
      let (journal, written) ←
        Growable.writeChunked limit items chunk
          (fun shown => interlude.callback (.growable shown) panicAt) .empty (.now growable)
      .ok (⟨.wroteChunksGrowing written.result journal.told.toList, [], written.events,
        journal.nested.toList⟩, written.growable)
  | .observe => do
      let observation ← (Face.growable growable.shown).observe .producer growable.ring
      .ok (.plain (.observed observation), growable)
  | .insertWith _ _ | .insertWithBackoff _ | .insertUntil _ _ | .writeAll _ =>
      .ok (.plain .unsupported, growable)

end ProducerCall

namespace Channel

variable {α : Type} [Item α]

def produce (limit : Nat) (interlude : Interlude α) (call : ProducerCall α) (channel : Channel α) :
    Checked (Performed α × Channel α) :=
  match channel.face with
  | .growable shown => do
      let (performed, growable) ← call.onGrowable limit interlude ⟨channel.ring, shown⟩
      .ok (performed, ⟨.growable growable.shown, growable.ring⟩)
  | face => do
      let (performed, ring) ← call.onBounded face interlude channel.ring
      .ok (performed, ⟨face, ring⟩)

/-- A producer call made while a consumer call is under way would wait for ever if it had to grow
the ring. -/
def wouldBlock (face : Face) (call : ProducerCall α) (ring : RingBuffer α) : Checked Bool :=
  match face with
  | .growable _ => do
      let observation ← face.observe .producer ring
      .ok (observation.free < call.needed)
  | .bare | .fixed => .ok false

/-- Perform a producer call that is made inside a consumer call. It never grows the ring. -/
def produceInside (limit : Nat) (face : Face) (call : ProducerCall α) (ring : RingBuffer α) :
    Checked (Answer α × RingBuffer α) := do
  let blocked ← wouldBlock face call ring
  let (performed, channel) ←
    if blocked then pure (.plain .blocked, ⟨face, ring⟩)
    else produce limit .quiet call ⟨face, ring⟩
  let observation ← channel.observe .producer
  .ok (performed.answer observation.status, channel.ring)

end Channel

end RingChannel
