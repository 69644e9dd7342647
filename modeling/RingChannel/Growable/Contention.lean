import RingChannel.Growable
import RingChannel.RingBuffer.Release

/-!
# An insert against a drain

While a drain hands over its first item, another thread inserts. If there is room the insert goes
through at once. If not, it has to wait until the drain is over before the ring may be replaced,
and by then the drain has made room.
-/

namespace RingChannel.Growable

variable {α : Type}

/-- How far the insert has come. One that waits has asked a ring that had no room for it. -/
inductive Rival (α : Type) where
  | idle
  | waiting (asked : Growable α)
  | finished (result : Except (InsertError α) (Option Growth)) (events : List Event)

/-- What the handler of the drain remembers: the items that it was given, and the other thread. -/
structure Contest (α : Type) where
  drained : Array α
  rival : Rival α

/-- The handler lets the other thread try while it holds the first item. -/
def contestHandler [Item α] (limit : Nat) (item : α) (shown : Nat) :
    Callback α α (Contest α) :=
  fun given contest ring => do
    let drained := contest.drained.push given
    match contest.rival with
    | .idle =>
        let asked : Growable α := ⟨ring, shown⟩
        let free ← ring.free
        if free = 0 then
          .ok (.proceed, ⟨drained, .waiting asked⟩, ring)
        else
          let written ← insert limit item (.now asked)
          .ok (.proceed, ⟨drained, .finished written.result written.events⟩, written.growable.ring)
    | rival => .ok (.proceed, ⟨drained, rival⟩, ring)

/-- What a contested drain ends with. Without an item to drain there is nothing to contest. -/
structure Contested (α : Type) where
  drained : Outcome Nat
  items : List α
  inserted : Option (Except (InsertError α) (Option Growth))
  events : List Event
  growable : Growable α

def drainContested [Item α] (limit max : Nat) (item : α) (growable : Growable α) :
    Checked (Contested α) := do
  let (outcome, contest, ring) ←
    growable.ring.drain max (contestHandler limit item growable.shown) ⟨#[], .idle⟩
  let after : Growable α := { growable with ring := ring }
  match contest.rival with
  | .idle => .ok ⟨outcome, contest.drained.toList, none, [], after⟩
  | .finished result events => .ok ⟨outcome, contest.drained.toList, some result, events, after⟩
  | .waiting asked =>
      let written ← insert limit item ⟨asked, after⟩
      .ok ⟨outcome, contest.drained.toList, some written.result, written.events, written.growable⟩

end RingChannel.Growable
