import RingChannel.Event
import RingChannel.RingBuffer.Regrow
import RingChannel.RingBuffer.Write

/-!
# Growable rings

A growable ring never refuses an item for lack of room. A producer call first makes sure that all
it wants to write fits; if it does not, the call takes the ring for itself, looks again, because
the consumer may have made room meanwhile, and replaces the store by the first one in the growth
sequence that is large enough. When that fails nothing has changed.
-/

namespace RingChannel

/-- A ring whose store can be replaced, and its capacity as it is shown to those who do not wait
for a replacement to finish. -/
structure Growable (α : Type) where
  ring : RingBuffer α
  shown : Nat

namespace Growable

variable {α κ : Type}

def ofRing (ring : RingBuffer α) : Growable α :=
  ⟨ring, ring.capacity⟩

/-- What a producer call has of the ring: as it asks for room, and as it finds the ring when it is
granted exclusive access, should it have to wait for that. -/
structure Grant (α : Type) where
  asked : Growable α
  granted : Growable α

/-- A call that nothing gets ahead of. -/
def Grant.now (growable : Growable α) : Grant α :=
  ⟨growable, growable⟩

structure Written (α ρ : Type) where
  result : ρ
  events : List Event
  growable : Growable α

/-- Make sure that `needed` slots are free. Needs exclusive access. -/
def grow [Item α] (limit needed : Nat) (growable : Growable α) :
    Checked (Written α (Except RingError (Option Growth))) := do
  let ring := growable.ring
  let free ← ring.free
  if needed ≤ free then
    .ok ⟨.ok none, [], growable⟩
  else
    let length ← subtract ring.capacity free
    match Capacity.growthTarget ring.capacity length needed with
    | none =>
        let error := .growthFailed ring.capacity Capacity.wordMax
        .ok ⟨.error error, [.growthFailed error needed], growable⟩
    | some target =>
        let (result, grown) ← ring.regrow limit target
        match result with
        | .error error =>
            .ok ⟨.error error, [.growthFailed error needed], { growable with ring := grown }⟩
        | .ok _ =>
            let growth := ⟨ring.capacity, target⟩
            .ok ⟨.ok (some growth), [.grew growth], ⟨grown, target⟩⟩

/-- Make sure that `needed` slots are free, growing only if they are not even once access is
exclusive. -/
def reserve [Item α] (limit needed : Nat) (grant : Grant α) :
    Checked (Written α (Except RingError (Option Growth))) := do
  let free ← grant.asked.ring.free
  if needed ≤ free then
    .ok ⟨.ok none, [], grant.asked⟩
  else
    grant.granted.grow limit needed

def insert [Item α] (limit : Nat) (item : α) (grant : Grant α) :
    Checked (Written α (Except (InsertError α) (Option Growth))) := do
  let reserved ← reserve limit 1 grant
  match reserved.result with
  | .error cause => .ok ⟨.error ⟨item, cause⟩, reserved.events, reserved.growable⟩
  | .ok growth =>
      let (rejected, ring) ← reserved.growable.ring.push item
      ensure (rejected.isNone = true) .reservationLost
      .ok ⟨.ok growth, reserved.events, { reserved.growable with ring := ring }⟩

def writeBatch [Item α] (limit : Nat) (items : Block α) (grant : Grant α) :
    Checked (Written α (Except RingError (Option Growth))) := do
  let reserved ← reserve limit items.size grant
  match reserved.result with
  | .error error => .ok ⟨.error error, reserved.events, reserved.growable⟩
  | .ok growth =>
      let (written, ring) ← reserved.growable.ring.writeBatch items
      ensure (written = items.size) (.shortWrite written items.size)
      .ok ⟨.ok growth, reserved.events, { reserved.growable with ring := ring }⟩

/-- Write all of the items in chunks, growing at most once, before the first of them. The callback
may depend on the capacity that is shown from then on. -/
def writeChunked [Item α] (limit : Nat) (items : Block α) (chunk : Nat)
    (onChunk : Nat → Callback α Nat κ) (memory : κ) (grant : Grant α) :
    Checked (κ × Written α (Outcome (Except RingError (Option Growth)))) := do
  let reserved ← reserve limit items.size grant
  match reserved.result with
  | .error error => .ok (memory, ⟨.returned (.error error), reserved.events, reserved.growable⟩)
  | .ok growth =>
      let (outcome, memory, ring) ←
        reserved.growable.ring.writeChunked items chunk (onChunk reserved.growable.shown) memory
      let growable := { reserved.growable with ring := ring }
      match outcome with
      | .panicked cause => .ok (memory, ⟨.panicked cause, reserved.events, growable⟩)
      | .returned written =>
          ensure (written = items.size) (.shortWrite written items.size)
          .ok (memory, ⟨.returned (.ok growth), reserved.events, growable⟩)

end Growable

end RingChannel
