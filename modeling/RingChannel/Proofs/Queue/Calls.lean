import RingChannel.Session
import RingChannel.Proofs.Queue.Basic

/-!
# Calls and sessions on a queue

The channel and the session once more, with a queue in the place of the ring. Faces, journals,
scripts and answers are those of the ring's calls, so that the two can be compared answer by
answer.
-/

namespace RingChannel

@[simp] theorem Journal.told_empty {α β : Type} : (empty : Journal α β).told = #[] := rfl

@[simp] theorem Journal.nested_empty {α β : Type} : (empty : Journal α β).nested = #[] := rfl

def ProducerCall.items {α : Type} : ProducerCall α → List α
  | .insert item | .insertWith item _ | .insertWithBackoff item | .insertUntil item _ => [item]
  | .writeBatch items | .writeChunked items _ _ | .writeAll items => items.toList
  | .observe => []

namespace Queue

variable {α β γ : Type}

def observe (face : Face) (role : Role) (queue : Queue α) : Observation where
  title := face.title role
  capacity := match face with
    | .bare | .fixed => queue.capacity
    | .growable shown => shown
  length := queue.items.length
  isEmpty := queue.items.length == 0
  isFull := queue.items.length == queue.capacity
  free := queue.free
  readable := queue.items.length
  counters := queue.metrics

/-- What the caller does on the other side at each invocation of its code. -/
abbrev Meanwhile (α : Type) :=
  Face → Nat → Queue α → Option (List (Answer α)) × Queue α

namespace Meanwhile

def quiet : Meanwhile α :=
  fun _ _ queue => (none, queue)

def performAll (perform : γ → Queue α → Answer α × Queue α) :
    List γ → Queue α → List (Answer α) × Queue α
  | [], queue => ([], queue)
  | call :: rest, queue =>
      let first := perform call queue
      let others := performAll perform rest first.2
      (first.1 :: others.1, others.2)

def ofScript (present : Bool) (perform : Face → γ → Queue α → Answer α × Queue α)
    (script : List (List γ)) : Meanwhile α :=
  fun face invocation queue =>
    match script[invocation]? with
    | none | some [] => (none, queue)
    | some (call :: rest) =>
        if present then
          let performed := performAll (perform face) (call :: rest) queue
          (some performed.1, performed.2)
        else (some [], queue)

def invoke (meanwhile : Meanwhile α) (face : Face) :
    β → Journal α β → Queue α → Journal α β × Queue α :=
  fun argument journal queue =>
    let answered := meanwhile face journal.told.size queue
    (journal.note argument answered.1, answered.2)

def callback (meanwhile : Meanwhile α) (face : Face) (panicAt : Option Nat) :
    Reaction α β (Journal α β) :=
  fun argument journal queue =>
    let invoked := meanwhile.invoke face argument journal queue
    (if panicAt = some journal.told.size then .panic else .proceed, invoked.1, invoked.2)

def factory (meanwhile : Meanwhile α) (face : Face) (panicAt : Option Nat) (item : α) :
    Journal α Unit → Queue α → Option α × Journal α Unit × Queue α :=
  fun journal queue =>
    let invoked := meanwhile.invoke face () journal queue
    (if panicAt = some journal.told.size then none else some item, invoked.1, invoked.2)

end Meanwhile

variable [Item α]

def writeBounded (face : Face) (meanwhile : Meanwhile α) (queue : Queue α) :
    ProducerCall α → Performed α × Queue α
  | .insert item =>
      let answer := queue.push item
      (.plain (.inserted answer.1), answer.2)
  | .insertWith item panicAt =>
      let answer := queue.pushWith (meanwhile.factory face panicAt item) .empty
      (⟨.made answer.1 answer.2.1.told.size, [], [], answer.2.1.nested.toList⟩, answer.2.2)
  | .insertWithBackoff item =>
      let answer := queue.pushRepeatedly 12 item
      (.plain (.inserted answer.1), answer.2)
  | .insertUntil item readings =>
      let answer := queue.pushRepeatedly (readings + 1) item
      (.plain (.inserted answer.1), answer.2)
  | .writeBatch items =>
      let answer := queue.writeBatch items
      (.plain (.wrote answer.1), answer.2)
  | .writeChunked items chunk panicAt =>
      let answer := queue.writeChunked items chunk (meanwhile.callback face panicAt) .empty
      (⟨.wroteChunks answer.1 answer.2.1.told.toList, [], [], answer.2.1.nested.toList⟩,
        answer.2.2)
  | .writeAll items =>
      let answer := queue.writeAll items
      (.plain (.wroteAll answer.1), answer.2)
  | .observe => (.plain (.observed (queue.observe face .producer)), queue)

/-- A producer call on a queue that grows. The capacity that is shown comes back with the queue. -/
def writeUnbounded (limit : Nat) (meanwhile : Meanwhile α) (shown : Nat) (queue : Queue α) :
    ProducerCall α → Performed α × Nat × Queue α
  | .insert item =>
      let answer := queue.insertGrowing limit item
      (⟨.insertedGrowing answer.1, [], answer.2.1, []⟩, shownAfter shown (queue.grow limit 1).1,
        answer.2.2)
  | .writeBatch items =>
      let answer := queue.writeGrowing limit items
      (⟨.wroteGrowing answer.1, [], answer.2.1, []⟩,
        shownAfter shown (queue.grow limit items.size).1, answer.2.2)
  | .writeChunked items chunk panicAt =>
      let answer := queue.writeChunkedGrowing limit items chunk
        (fun shown => meanwhile.callback (.growable shown) panicAt) .empty shown
      (⟨.wroteChunksGrowing answer.2.1 answer.1.told.toList, [], answer.2.2.1,
          answer.1.nested.toList⟩,
        shownAfter shown (queue.grow limit items.size).1, answer.2.2.2)
  | .observe => (.plain (.observed (queue.observe (.growable shown) .producer)), shown, queue)
  | .insertWith _ _ | .insertWithBackoff _ | .insertUntil _ _ | .writeAll _ =>
      (.plain .unsupported, shown, queue)

def produce (limit : Nat) (meanwhile : Meanwhile α) (call : ProducerCall α) (face : Face)
    (queue : Queue α) : Performed α × Face × Queue α :=
  match face with
  | .growable shown =>
      let answer := queue.writeUnbounded limit meanwhile shown call
      (answer.1, .growable answer.2.1, answer.2.2)
  | face =>
      let answer := queue.writeBounded face meanwhile call
      (answer.1, face, answer.2)

def consume (face : Face) (meanwhile : Meanwhile α) (queue : Queue α) :
    ConsumerCall α → Performed α × Queue α
  | .remove | .removeWithBackoff | .removeUntil _ =>
      let answer := queue.pop
      (.plain (.removed answer.1), answer.2)
  | .removeInto target =>
      let answer := queue.popInto target
      (⟨.removedInto answer.1 answer.2.1, answer.2.2.1, [], []⟩, answer.2.2.2)
  | .peek => (.plain (.seen queue.items[0]?), queue)
  | .peekAt index => (.plain (.seen queue.items[index]?), queue)
  | .hold index =>
      let answer := queue.hold index (meanwhile.invoke face) .empty
      (⟨.held answer.1, [], [], answer.2.1.nested.toList⟩, answer.2.2)
  | .discard count =>
      let answer := queue.discard count
      (⟨.discarded answer.1, answer.2.1, [], []⟩, answer.2.2)
  | .discardExact count =>
      let answer := queue.discardExact count
      (⟨.discardedExact answer.1, answer.2.1, [], []⟩, answer.2.2)
  | .clear =>
      let answer := queue.discard queue.items.length
      (⟨.discarded answer.1, answer.2.1, ConsumerCall.clearedEvents answer.1, []⟩, answer.2.2)
  | .drain limit panicAt =>
      let answer := queue.drain limit (meanwhile.callback face panicAt) .empty
      (⟨.drained answer.1 answer.2.1.told.toList, [], [], answer.2.1.nested.toList⟩, answer.2.2)
  | .readBatch buffer =>
      let answer := queue.readBatch buffer
      (.plain (.readBatch answer.1 answer.2.1), answer.2.2)
  | .peekBatch buffer =>
      let answer := queue.peekBatch buffer
      (.plain (.readBatch answer.1 answer.2), queue)
  | .readExact buffer =>
      let answer := queue.readExact buffer
      (.plain (.readExact answer.1 answer.2.1), answer.2.2)
  | .readChunked buffer chunk panicAt =>
      let answer := queue.readChunked buffer chunk (meanwhile.callback face panicAt) .empty
      (⟨.readChunks answer.1 answer.2.2.1.told.toList answer.2.1, [], [],
        answer.2.2.1.nested.toList⟩, answer.2.2.2)
  | .observe => (.plain (.observed (queue.observe face .consumer)), queue)

def consumeInside (face : Face) (call : ConsumerCall α) (queue : Queue α) : Answer α × Queue α :=
  let performed := queue.consume face .quiet call
  (performed.1.answer (performed.2.observe face .consumer).status, performed.2)

def produceInside (limit : Nat) (face : Face) (call : ProducerCall α) (queue : Queue α) :
    Answer α × Queue α :=
  match face with
  | .growable shown =>
      if queue.free < call.needed then
        ((Performed.plain .blocked).answer (queue.observe face .producer).status, queue)
      else
        let performed := queue.writeUnbounded limit .quiet shown call
        (performed.1.answer (performed.2.2.observe face .producer).status, performed.2.2)
  | face =>
      let performed := queue.writeBounded face .quiet call
      (performed.1.answer (performed.2.observe face .producer).status, performed.2)

/-- A drain of up to `max` items against an insert by another thread. As soon as an item has been
drained there is room. -/
def contend (item : α) (max : Nat) (queue : Queue α) : StepReply α × Queue α :=
  let count := min max queue.items.length
  if count = 0 then (.contended (.returned 0) [] none, queue)
  else
    (.contended (.returned count) (queue.items.take count) (some (.ok none)),
      (queue.remove count).append [item])

end Queue

structure QueueSession (α : Type) where
  face : Face
  queue : Queue α
  limit : Nat
  producing : Bool
  consuming : Bool

namespace QueueSession

variable {α : Type} [Item α]

def status (session : QueueSession α) : Option Status :=
  if session.producing || session.consuming then
    let role := if session.producing then .producer else .consumer
    some (session.queue.observe session.face role).status
  else none

def producerMeanwhile (session : QueueSession α) (script : List (List (ConsumerCall α))) :
    Queue.Meanwhile α :=
  .ofScript session.consuming Queue.consumeInside script

def consumerMeanwhile (session : QueueSession α) (script : List (List (ProducerCall α))) :
    Queue.Meanwhile α :=
  .ofScript session.producing (Queue.produceInside session.limit) script

abbrev Done (α : Type) :=
  StepReply α × List α × List Event × QueueSession α

def drop (session : QueueSession α) (role : Role) : Outcome Unit × List α × QueueSession α :=
  let (present, left) := match role with
    | .producer => (session.producing, { session with producing := false })
    | .consumer => (session.consuming, { session with consuming := false })
  if present && !(left.producing || left.consuming) then
    let ruins := demolish session.queue.items
    (ruins.1, ruins.2, left)
  else (.returned (), [], left)

def take (session : QueueSession α) : Step α → Done α
  | .produce call script =>
      if session.producing then
        let performed := session.queue.produce session.limit (session.producerMeanwhile script) call
          session.face
        (.called performed.1.reply performed.1.nested, performed.1.destroyed, performed.1.events,
          { session with face := performed.2.1, queue := performed.2.2 })
      else (.gone, [], [], session)
  | .consume call script =>
      if session.consuming then
        let performed := session.queue.consume session.face (session.consumerMeanwhile script) call
        (.called performed.1.reply performed.1.nested, performed.1.destroyed, performed.1.events,
          { session with queue := performed.2 })
      else (.gone, [], [], session)
  | .setLimit bytes => (.limitSet, [], [], { session with limit := Session.bound bytes })
  | .dropProducer =>
      let dropped := session.drop .producer
      (.dropped dropped.1, dropped.2.1, [], dropped.2.2)
  | .dropConsumer =>
      let dropped := session.drop .consumer
      (.dropped dropped.1, dropped.2.1, [], dropped.2.2)
  | .regrow capacity =>
      match session.face with
      | .bare =>
          if session.producing || session.consuming then
            let regrown := session.queue.regrow session.limit capacity
            (.regrown regrown.1, [], [], { session with queue := regrown.2 })
          else (.gone, [], [], session)
      | .fixed | .growable _ => (.unsupported, [], [], session)
  | .contend item max =>
      match session.face with
      | .growable _ =>
          if session.producing && session.consuming then
            let contended := session.queue.contend item max
            (contended.1, [], [], { session with queue := contended.2 })
          else (.gone, [], [], session)
      | .bare | .fixed => (.unsupported, [], [], session)

def step (session : QueueSession α) (step : Step α) : StepAnswer α × QueueSession α :=
  let done := session.take step
  (⟨done.1, done.2.2.2.status, done.2.1, done.2.2.1⟩, done.2.2.2)

theorem reply_produce {session : QueueSession α} (h : session.producing = true)
    (call : ProducerCall α) (script : List (List (ConsumerCall α))) :
    (session.step (.produce call script)).1.reply =
      .called
        (session.queue.produce session.limit (session.producerMeanwhile script) call
          session.face).1.reply
        (session.queue.produce session.limit (session.producerMeanwhile script) call
          session.face).1.nested := by
  simp only [step, take, h, if_true]

theorem reply_consume {session : QueueSession α} (h : session.consuming = true)
    (call : ConsumerCall α) (script : List (List (ProducerCall α))) :
    (session.step (.consume call script)).1.reply =
      .called
        (session.queue.consume session.face (session.consumerMeanwhile script) call).1.reply
        (session.queue.consume session.face (session.consumerMeanwhile script) call).1.nested := by
  simp only [step, take, h, if_true]

def run (session : QueueSession α) : List (Step α) → List (StepAnswer α) × QueueSession α
  | [] => ([], session)
  | step :: rest =>
      let first := session.step step
      let others := first.2.run rest
      (first.1 :: others.1, others.2)

def finish (session : QueueSession α) : Session.Ending α :=
  let first := session.drop .producer
  let second := first.2.2.drop .consumer
  ⟨first.1, second.1, first.2.1 ++ second.2.1⟩

end QueueSession

end RingChannel
