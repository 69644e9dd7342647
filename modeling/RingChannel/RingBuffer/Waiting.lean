import RingChannel.Backoff
import RingChannel.RingBuffer.Read

/-!
# Waiting

The waiting forms repeat a single insert or removal. Those with a backoff give up when its rounds
are used up. Those with a deadline read a clock after each vain attempt; the deadline is given as
the number of readings that still come before it, so zero stands for a deadline that has passed.
-/

namespace RingChannel.RingBuffer

variable {α : Type}

/-- Insert, with the rounds that `backoff` has left. -/
def pushWaiting (item : α) (backoff : Backoff) (ring : RingBuffer α) :
    Checked (Option α × RingBuffer α) := do
  let (rejected, ring) ← ring.push item
  match rejected with
  | none => .ok (none, ring)
  | some item =>
      if _h : backoff.isCompleted then .ok (some item, ring)
      else pushWaiting item backoff.snooze ring
termination_by backoff.remaining
decreasing_by exact Backoff.remaining_snooze_lt (by simpa using _h)

def pushWithBackoff (item : α) (ring : RingBuffer α) : Checked (Option α × RingBuffer α) :=
  pushWaiting item .fresh ring

/-- Insert, and give up at the deadline. -/
def pushUntil (item : α) : (readings : Nat) → RingBuffer α → Checked (Option α × RingBuffer α)
  | 0, ring => ring.push item
  | readings + 1, ring => do
      let (rejected, ring) ← ring.push item
      match rejected with
      | none => .ok (none, ring)
      | some item => pushUntil item readings ring

def popWaiting (backoff : Backoff) (ring : RingBuffer α) : Checked (Option α × RingBuffer α) := do
  let (removed, ring) ← ring.pop
  match removed with
  | some item => .ok (some item, ring)
  | none =>
      if _h : backoff.isCompleted then .ok (none, ring)
      else popWaiting backoff.snooze ring
termination_by backoff.remaining
decreasing_by exact Backoff.remaining_snooze_lt (by simpa using _h)

def popWithBackoff (ring : RingBuffer α) : Checked (Option α × RingBuffer α) :=
  popWaiting .fresh ring

def popUntil : (readings : Nat) → RingBuffer α → Checked (Option α × RingBuffer α)
  | 0, ring => ring.pop
  | readings + 1, ring => do
      let (removed, ring) ← ring.pop
      match removed with
      | some item => .ok (some item, ring)
      | none => popUntil readings ring

end RingChannel.RingBuffer
