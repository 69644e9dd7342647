import RingChannel.Channel.Consume
import RingChannel.Growable.Contention

/-!
# Sessions

A session is a channel in the hands of its two sides. It takes one step after another: calls, the
release of a handle, a new bound on memory. A call may come with a script of calls that the caller
makes on the other side while its own code runs. The ring goes when the second handle does.
-/

namespace RingChannel

/-- A channel, the bytes that a store may take, and the handles that are still there. -/
structure Session (α : Type) where
  channel : Channel α
  limit : Nat
  producing : Bool
  consuming : Bool

/-- One step of a session. The calls of list `k` of a script are made at invocation `k` of the
callback, and a contended drain has another thread insert an item meanwhile. -/
inductive Step (α : Type) where
  | produce (call : ProducerCall α) (script : List (List (ConsumerCall α)))
  | consume (call : ConsumerCall α) (script : List (List (ProducerCall α)))
  | setLimit (bytes : Nat)
  | dropProducer
  | dropConsumer
  | regrow (capacity : Nat)
  | contend (item : α) (max : Nat)

inductive StepReply (α : Type) where
  | called (reply : Reply α) (nested : List (Nat × List (Answer α)))
  | limitSet
  | dropped (outcome : Outcome Unit)
  | regrown (result : Except RingError Unit)
  | contended (drained : Outcome Nat) (items : List α)
      (inserted : Option (Except (InsertError α) (Option Growth)))
  | gone
  | unsupported

/-- An answer with the state that the step leaves, if a handle is left to see it, the items that
were destroyed in the step itself, in order, and what was reported. -/
structure StepAnswer (α : Type) where
  reply : StepReply α
  status : Option Status
  destroyed : List α
  events : List Event

structure Taken (α : Type) where
  reply : StepReply α
  destroyed : List α
  events : List Event
  session : Session α

namespace Session

variable {α : Type} [Item α]

def defaultLimit : Nat := 1 <<< 26

/-- The bytes that a store may take when `bytes` are granted. No store takes more than one object
can have. -/
def bound (bytes : Nat) : Nat :=
  min bytes Capacity.byteMax

def start (kind : Kind) (limit capacity : Nat) (config : Config) (cursor : UInt64) :
    Except RingError (Session α) := do
  let channel ← Channel.create kind (bound limit) capacity config cursor
  .ok ⟨channel, bound limit, true, true⟩

/-- The state, if a handle is left to see it. -/
def status (session : Session α) : Checked (Option Status) :=
  if session.producing || session.consuming then do
    let role := if session.producing then .producer else .consumer
    let observation ← session.channel.observe role
    .ok (some observation.status)
  else .ok none

def producerInterlude (session : Session α) (script : List (List (ConsumerCall α))) : Interlude α :=
  .ofScript session.consuming Channel.consumeInside script

def consumerInterlude (session : Session α) (script : List (List (ProducerCall α))) : Interlude α :=
  .ofScript session.producing (Channel.produceInside session.limit) script

def refuse (session : Session α) (reply : StepReply α) : Taken α :=
  ⟨reply, [], [], session⟩

def called (session : Session α) (performed : Performed α) (channel : Channel α) : Taken α :=
  ⟨.called performed.reply performed.nested, performed.destroyed, performed.events,
    { session with channel := channel }⟩

/-- Give up a handle. Giving up the second one disposes of the ring; giving up one that is gone does
nothing. -/
def drop (session : Session α) (role : Role) : Checked (Outcome Unit × List α × Session α) := do
  let (present, left) := match role with
    | .producer => (session.producing, { session with producing := false })
    | .consumer => (session.consuming, { session with consuming := false })
  if present && !(left.producing || left.consuming) then
    let (outcome, destroyed) ← session.channel.ring.dispose
    .ok (outcome, destroyed, left)
  else .ok (.returned (), [], left)

def dropStep (session : Session α) (role : Role) : Checked (Taken α) := do
  let (outcome, destroyed, session) ← session.drop role
  .ok ⟨.dropped outcome, destroyed, [], session⟩

def regrow (session : Session α) (capacity : Nat) : Checked (Taken α) :=
  match session.channel.face with
  | .bare =>
      if session.producing || session.consuming then do
        let (result, ring) ← session.channel.ring.regrow session.limit capacity
        .ok ⟨.regrown result, [], [], { session with channel := ⟨.bare, ring⟩ }⟩
      else .ok (session.refuse .gone)
  | .fixed | .growable _ => .ok (session.refuse .unsupported)

def contend (session : Session α) (item : α) (max : Nat) : Checked (Taken α) :=
  match session.channel.face with
  | .growable shown =>
      if session.producing && session.consuming then do
        let contested ←
          Growable.drainContested session.limit max item ⟨session.channel.ring, shown⟩
        let growable := contested.growable
        .ok ⟨.contended contested.drained contested.items contested.inserted, [], contested.events,
          { session with channel := ⟨.growable growable.shown, growable.ring⟩ }⟩
      else .ok (session.refuse .gone)
  | .bare | .fixed => .ok (session.refuse .unsupported)

def take (session : Session α) : Step α → Checked (Taken α)
  | .produce call script =>
      if session.producing then do
        let (performed, channel) ←
          session.channel.produce session.limit (session.producerInterlude script) call
        .ok (session.called performed channel)
      else .ok (session.refuse .gone)
  | .consume call script =>
      if session.consuming then do
        let (performed, channel) ← session.channel.consume (session.consumerInterlude script) call
        .ok (session.called performed channel)
      else .ok (session.refuse .gone)
  | .setLimit bytes => .ok ({ session with limit := bound bytes }.refuse .limitSet)
  | .dropProducer => session.dropStep .producer
  | .dropConsumer => session.dropStep .consumer
  | .regrow capacity => session.regrow capacity
  | .contend item max => session.contend item max

/-- Take one step and look at the state that it leaves. -/
def step (session : Session α) (step : Step α) : Checked (StepAnswer α × Session α) := do
  let taken ← session.take step
  let status ← taken.session.status
  .ok (⟨taken.reply, status, taken.destroyed, taken.events⟩, taken.session)

def run (session : Session α) : List (Step α) → Checked (List (StepAnswer α) × Session α)
  | [] => .ok ([], session)
  | step :: rest => do
      let (answer, session) ← session.step step
      let (answers, session) ← session.run rest
      .ok (answer :: answers, session)

structure Ending (α : Type) where
  producer : Outcome Unit
  consumer : Outcome Unit
  destroyed : List α

def finish (session : Session α) : Checked (Ending α) := do
  let (producer, first, session) ← session.drop .producer
  let (consumer, second, _) ← session.drop .consumer
  .ok ⟨producer, consumer, first ++ second⟩

end Session

end RingChannel
