import RingChannel.Text.Layout

/-!
# Configuration

A ring may count what it does, and it may give up the fences around its cursors. An ordering names a
fence for each access to a cursor, one that the access takes. So neither choice changes what a ring
answers.
-/

namespace RingChannel

open Text

inductive Fence where
  | acquire
  | release
  | relaxed
  deriving DecidableEq, Repr

def Fence.name : Fence → String
  | .acquire => "Acquire"
  | .release => "Release"
  | .relaxed => "Relaxed"

inductive MemoryOrdering where
  | acquireRelease
  | relaxed
  deriving DecidableEq, Repr

namespace MemoryOrdering

/-- The fence of a load of the other side's cursor. -/
def acquire : MemoryOrdering → Fence
  | .acquireRelease => .acquire
  | .relaxed => .relaxed

/-- The fence of a store that publishes a cursor. -/
def release : MemoryOrdering → Fence
  | .acquireRelease => .release
  | .relaxed => .relaxed

def name : MemoryOrdering → String
  | .acquireRelease => "AcquireRelease"
  | .relaxed => "Relaxed"

end MemoryOrdering

structure Config where
  metered : Bool
  ordering : MemoryOrdering
  deriving DecidableEq, Repr

namespace Config

def ofMetered (metered : Bool) : Config :=
  ⟨metered, .acquireRelease⟩

def plain : Config :=
  ofMetered false

def counting : Config :=
  ofMetered true

def withMetrics (config : Config) : Config :=
  { config with metered := true }

def withRelaxedOrdering (config : Config) : Config :=
  { config with ordering := .relaxed }

def layout (config : Config) : Layout :=
  .record "Config"
    [("enable_metrics", .word (if config.metered then "true" else "false")),
      ("ordering", .word config.ordering.name)] true

end Config

end RingChannel
