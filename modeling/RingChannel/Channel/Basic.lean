import RingChannel.Channel.Call

/-!
# Channels

A channel is a ring with two handles, one for each side. It comes in three kinds: the bare ring,
used without handles of its own, the fixed ring, which refuses what does not fit, and the growable
ring. The kind decides how the ring is seen and what a producer call does when there is no room.
-/

namespace RingChannel

open Text

inductive Kind where
  | bare
  | fixed
  | growable
  deriving DecidableEq, Repr

/-- The kind of a channel in use. A growable one has a capacity to show that can be read while the
ring is being replaced. -/
inductive Face where
  | bare
  | fixed
  | growable (shown : Nat)
  deriving DecidableEq, Repr

namespace Face

variable {α : Type}

def title : Face → Role → Option String
  | .bare, _ => none
  | .fixed, .producer => some "Producer"
  | .fixed, .consumer => some "Consumer"
  | .growable _, .producer => some "GrowableProducer"
  | .growable _, .consumer => some "GrowableConsumer"

/-- What a side sees. A bare ring measures its free room between the cursors; a handle takes it
from the length that anybody may read. -/
def observe (face : Face) (role : Role) (ring : RingBuffer α) : Checked Observation := do
  let free ← match face with
    | .bare => ring.free
    | .fixed | .growable _ => subtract ring.capacity ring.length
  let readable ← match face with
    | .bare => ring.readable
    | .fixed | .growable _ => .ok ring.length
  .ok
    { title := face.title role
      capacity := match face with
        | .bare | .fixed => ring.capacity
        | .growable shown => shown
      length := ring.length
      isEmpty := ring.length == 0
      isFull := ring.length == ring.capacity
      free := free
      readable := readable
      counters := ring.metrics }

end Face

structure Channel (α : Type) where
  face : Face
  ring : RingBuffer α

namespace Channel

variable {α : Type}

def ofRing (ring : RingBuffer α) : Kind → Channel α
  | .bare => ⟨.bare, ring⟩
  | .fixed => ⟨.fixed, ring⟩
  | .growable => ⟨.growable ring.capacity, ring⟩

/-- A new channel. Only a bare ring starts its cursors elsewhere than at zero. -/
def create [Item α] (kind : Kind) (limit capacity : Nat) (config : Config) (start : UInt64) :
    Except RingError (Channel α) := do
  let ring ← RingBuffer.create limit capacity config (if kind = .bare then start else 0)
  .ok (ofRing ring kind)

def observe (channel : Channel α) (role : Role) : Checked Observation :=
  channel.face.observe role channel.ring

/-- The text of a ring that has not been split into handles yet. -/
def wholeLayout (channel : Channel α) : Layout :=
  .record
    (match channel.face with
      | .bare => "RawRing"
      | .fixed => "FixedRing"
      | .growable _ => "GrowableRing")
    [("capacity", .number channel.ring.capacity)] true

end Channel

end RingChannel
