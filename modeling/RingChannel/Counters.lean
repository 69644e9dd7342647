import RingChannel.Text.Layout

/-!
# Counters

Five counters, words that wrap. Each operation of a ring that moves or refuses items adds one tally.
-/

namespace RingChannel

open Text

inductive Tally where
  | inserted (count : Nat)
  | removed (count : Nat)
  | discarded (count : Nat)
  | rejected (count : Nat)
  | growth
  deriving DecidableEq, Repr

structure Counters where
  inserted : UInt64
  removed : UInt64
  discarded : UInt64
  rejected : UInt64
  growths : UInt64
  deriving DecidableEq, Repr

namespace Counters

def zero : Counters :=
  ⟨0, 0, 0, 0, 0⟩

def add (counters : Counters) : Tally → Counters
  | .inserted n => { counters with inserted := counters.inserted + UInt64.ofNat n }
  | .removed n => { counters with removed := counters.removed + UInt64.ofNat n }
  | .discarded n => { counters with discarded := counters.discarded + UInt64.ofNat n }
  | .rejected n => { counters with rejected := counters.rejected + UInt64.ofNat n }
  | .growth => { counters with growths := counters.growths + 1 }

def toList (counters : Counters) : List Nat :=
  [counters.inserted, counters.removed, counters.discarded, counters.rejected,
    counters.growths].map UInt64.toNat

def layout (title : String) (counters : Counters) : Layout :=
  .record title
    [("inserted", .number counters.inserted.toNat),
      ("removed", .number counters.removed.toNat),
      ("discarded", .number counters.discarded.toNat),
      ("rejected", .number counters.rejected.toNat),
      ("growths", .number counters.growths.toNat)] true

def liveLayout : Counters → Layout :=
  layout "Metrics"

def snapshotLayout : Counters → Layout :=
  layout "MetricsSnapshot"

end Counters

end RingChannel
