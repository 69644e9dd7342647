import RingChannel.Text.Layout

/-!
# Backoff

Waiting gets lazier with every round: first short spins that double in length, then yields, and
after a few of those the waiting is over. A bounded wait gives up there; an unbounded one goes on
yielding.
-/

namespace RingChannel

open Text

/-- How far the waiting has come. -/
structure Backoff where
  step : Nat
  deriving DecidableEq, Repr

namespace Backoff

def spinLimit : Nat := 6

def yieldLimit : Nat := 10

def fresh : Backoff :=
  ⟨0⟩

/-- The exponent of the number of pauses that the next spin takes. -/
def spinShift (backoff : Backoff) : Nat :=
  min backoff.step spinLimit

/-- Spin once. Spinning alone never ends the waiting. -/
def spin (backoff : Backoff) : Backoff :=
  if backoff.step ≤ spinLimit then ⟨backoff.step + 1⟩ else backoff

def snooze (backoff : Backoff) : Backoff :=
  if backoff.step ≤ spinLimit then backoff.spin
  else if backoff.step ≤ yieldLimit then ⟨backoff.step + 1⟩
  else backoff

def isCompleted (backoff : Backoff) : Bool :=
  yieldLimit < backoff.step

/-- Like `snooze`, for those who go on after the waiting is over. -/
def wait (backoff : Backoff) : Backoff :=
  if backoff.isCompleted then backoff else backoff.snooze

def remaining (backoff : Backoff) : Nat :=
  yieldLimit + 1 - backoff.step

theorem remaining_eq_zero_iff {backoff : Backoff} :
    backoff.remaining = 0 ↔ backoff.isCompleted = true := by
  simp only [remaining, isCompleted, decide_eq_true_eq]
  omega

theorem remaining_snooze {backoff : Backoff} (h : backoff.isCompleted = false) :
    backoff.snooze.remaining + 1 = backoff.remaining := by
  have hle : backoff.step ≤ 10 := Nat.not_lt.1 (of_decide_eq_false h)
  by_cases hspin : backoff.step ≤ 6
  · simp [remaining, snooze, spin, spinLimit, yieldLimit, hspin]
    omega
  · simp [remaining, snooze, spinLimit, yieldLimit, hspin, hle]
    omega

theorem remaining_snooze_lt {backoff : Backoff} (h : backoff.isCompleted = false) :
    backoff.snooze.remaining < backoff.remaining :=
  Nat.lt_of_succ_le (Nat.le_of_eq (remaining_snooze h))

/-- With a round left the waiting is not over, and a snooze leaves one round less. -/
theorem snooze_of_remaining {backoff : Backoff} {left : Nat} (h : backoff.remaining = left + 1) :
    backoff.isCompleted = false ∧ backoff.snooze.remaining = left := by
  have hmore : backoff.isCompleted = false := by
    apply Bool.eq_false_iff.2
    intro hdone
    rw [remaining_eq_zero_iff.2 hdone] at h
    cases h
  exact ⟨hmore, Nat.succ.inj ((remaining_snooze hmore).trans h)⟩

inductive Action where
  | spin
  | snooze
  | wait
  | reset
  deriving DecidableEq, Repr

def apply (backoff : Backoff) : Action → Backoff
  | .spin => backoff.spin
  | .snooze => backoff.snooze
  | .wait => backoff.wait
  | .reset => fresh

/-- What a call does with the time that it takes. -/
inductive Rest where
  | nothing
  | pauses (count : Nat)
  | yield
  deriving DecidableEq, Repr

def spinRest (backoff : Backoff) : Rest :=
  .pauses (1 <<< backoff.spinShift)

/-- A snooze that does not spin yields, also when the waiting is over. -/
def snoozeRest (backoff : Backoff) : Rest :=
  if backoff.step ≤ spinLimit then backoff.spinRest else .yield

def waitRest (backoff : Backoff) : Rest :=
  if backoff.isCompleted then .yield else backoff.snoozeRest

def rest (backoff : Backoff) : Action → Rest
  | .spin => backoff.spinRest
  | .snooze => backoff.snoozeRest
  | .wait => backoff.waitRest
  | .reset => .nothing

def run (actions : List Action) : Backoff :=
  actions.foldl apply fresh

def layout (backoff : Backoff) : Layout :=
  .record "Backoff" [("step", .number backoff.step)] true

end Backoff

end RingChannel
