import RingChannel.Block
import RingChannel.Counters
import RingChannel.Event
import RingChannel.RingBuffer.Callback

/-!
# Calls and replies

What the two sides of a channel can be asked, and what they answer. A call that runs code of its
caller names at most one invocation of that code that panics.
-/

namespace RingChannel

open Text

inductive Role where
  | producer
  | consumer
  deriving DecidableEq, Repr

inductive ProducerCall (α : Type) where
  | insert (item : α)
  | insertWith (item : α) (panicAt : Option Nat)
  | insertWithBackoff (item : α)
  | insertUntil (item : α) (readings : Nat)
  | writeBatch (items : Block α)
  | writeChunked (items : Block α) (chunk : Nat) (panicAt : Option Nat)
  | writeAll (items : Block α)
  | observe

def ProducerCall.needed {α : Type} : ProducerCall α → Nat
  | .insert _ | .insertWith _ _ | .insertWithBackoff _ | .insertUntil _ _ => 1
  | .writeBatch items | .writeChunked items _ _ | .writeAll items => items.size
  | .observe => 0

inductive ConsumerCall (α : Type) where
  | remove
  | removeWithBackoff
  | removeUntil (readings : Nat)
  | removeInto (target : α)
  | peek
  | peekAt (index : Nat)
  | hold (index : Nat)
  | discard (count : Nat)
  | discardExact (count : Nat)
  | clear
  | drain (limit : Nat) (panicAt : Option Nat)
  | readBatch (buffer : Block α)
  | peekBatch (buffer : Block α)
  | readExact (buffer : Block α)
  | readChunked (buffer : Block α) (chunk : Nat) (panicAt : Option Nat)
  | observe

/-- What a side sees of its channel. The title is missing where the ring is used without handles. -/
structure Observation where
  title : Option String
  capacity : Nat
  length : Nat
  isEmpty : Bool
  isFull : Bool
  free : Nat
  readable : Nat
  counters : Counters
  deriving DecidableEq, Repr

def Observation.layout (observation : Observation) : Option Layout :=
  observation.title.map fun title =>
    .record title
      [("capacity", .number observation.capacity), ("len", .number observation.length)] true

structure Status where
  capacity : Nat
  length : Nat
  free : Nat
  counters : Counters
  deriving DecidableEq, Repr

def Observation.status (observation : Observation) : Status :=
  ⟨observation.capacity, observation.length, observation.free, observation.counters⟩

/-- The answer to a call. Where code of the caller ran, it shows what that code was told, also
when it panicked. A call is blocked if it would wait for a growth that waits for the call it is made
in. -/
inductive Reply (α : Type) where
  | inserted (rejected : Option α)
  | insertedGrowing (result : Except (InsertError α) (Option Growth))
  | made (outcome : Outcome Bool) (calls : Nat)
  | wrote (count : Nat)
  | wroteGrowing (result : Except RingError (Option Growth))
  | wroteChunks (outcome : Outcome Nat) (chunks : List Nat)
  | wroteChunksGrowing (outcome : Outcome (Except RingError (Option Growth))) (chunks : List Nat)
  | wroteAll (done : Bool)
  | removed (item : Option α)
  | removedInto (outcome : Outcome Bool) (target : α)
  | seen (item : Option α)
  | held (item : Option α)
  | discarded (outcome : Outcome Nat)
  | discardedExact (outcome : Outcome Bool)
  | drained (outcome : Outcome Nat) (items : List α)
  | readBatch (count : Nat) (buffer : Block α)
  | readExact (done : Bool) (buffer : Block α)
  | readChunks (outcome : Outcome Nat) (chunks : List Nat) (buffer : Block α)
  | observed (observation : Observation)
  | blocked
  | unsupported

/-- An answer with the state that the call leaves, the items that were destroyed in it, in order,
and what was reported. -/
structure Answer (α : Type) where
  reply : Reply α
  status : Status
  destroyed : List α
  events : List Event

end RingChannel
