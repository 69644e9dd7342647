import RingChannel.RingBuffer.Basic

/-!
# Callbacks

Some calls run code of their caller half way: after each chunk of a batch, for each drained item,
or to make the item to insert. That code may work on the other side of the ring, so it takes the
ring and gives it back; it may remember things; and it may panic, as may the destruction of an
item. A call then stops in the state that it has reached.
-/

namespace RingChannel

inductive Signal where
  | proceed
  | panic
  deriving DecidableEq, Repr

inductive Panic where
  | callback
  | destructor
  deriving DecidableEq, Repr

/-- How a call ends: with its result, or broken off. -/
inductive Outcome (ρ : Type) where
  | returned (result : ρ)
  | panicked (cause : Panic)
  deriving DecidableEq, Repr

def Outcome.map {ρ σ : Type} (f : ρ → σ) : Outcome ρ → Outcome σ
  | .returned result => .returned (f result)
  | .panicked cause => .panicked cause

/-- Code of the caller that is told a `β`, has a memory `κ`, and may change the ring. -/
abbrev Callback (α β κ : Type) :=
  β → κ → RingBuffer α → Checked (Signal × κ × RingBuffer α)

/-- Code of the caller that makes an item; `none` if it panics. -/
abbrev Factory (α κ : Type) :=
  κ → RingBuffer α → Checked (Option α × κ × RingBuffer α)

end RingChannel
