import RingChannel.Error

/-!
# Events

What a ring reports besides its answers: a growth, a failed growth, and a ring cleared.
-/

namespace RingChannel

structure Growth where
  before : Nat
  after : Nat
  deriving DecidableEq, Repr

inductive Event where
  | grew (growth : Growth)
  | growthFailed (error : RingError) (needed : Nat)
  | cleared (discarded : Nat)
  deriving DecidableEq, Repr

inductive Level where
  | trace
  | debug
  | warn
  deriving DecidableEq, Repr

def Level.name : Level → String
  | .trace => "TRACE"
  | .debug => "DEBUG"
  | .warn => "WARN"

namespace Event

/-- A growth is routine, a failed one is not, and clearing is of interest to few. -/
def level : Event → Level
  | .grew _ => .debug
  | .growthFailed _ _ => .warn
  | .cleared _ => .trace

def message : Event → String
  | .grew _ => "ring growth"
  | .growthFailed _ _ => "ring growth failed"
  | .cleared _ => "ring cleared"

end Event

end RingChannel
