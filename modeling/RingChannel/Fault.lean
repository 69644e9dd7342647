import RingChannel.Config

/-!
# Faults and checked steps

A ring relies on rules that its callers cannot break: a slot is written only when vacant, a cursor
never passes the other one, a length is never subtracted below zero. Each rule is checked where it
is relied on, and a broken one ends the computation with a `Fault`. That no reachable ring raises
a fault is then a statement about values.
-/

namespace RingChannel

/-- A rule of the ring that does not hold at the place that relies on it. -/
inductive Fault where
  | overfull (live capacity : Nat)
  | overtaken (advance window : Nat)
  | unwritten (offset available : Nat)
  | badRegrow (current requested : Nat)
  | reservationLost
  | shortWrite (written expected : Nat)
  | negative (minuend subtrahend : Nat)
  | outOfRange (index size : Nat)
  | vacant (index : Nat)
  | occupied (index : Nat)
  | misfenced (fence : Fence)
  deriving DecidableEq, Repr

/-- A computation that stops at the first broken rule. -/
abbrev Checked := Except Fault

@[simp] theorem ok_bind {α β : Type} (value : α) (next : α → Checked β) :
    ((.ok value : Checked α) >>= next) = next value := rfl

theorem bind_eq_ok_iff {α β : Type} {first : Checked α} {next : α → Checked β} {result : β} :
    (first >>= next) = .ok result ↔ ∃ value, first = .ok value ∧ next value = .ok result := by
  cases first with
  | error fault => simp [bind, Except.bind]
  | ok value => simp

def ensure (p : Prop) [Decidable p] (fault : Fault) : Checked Unit :=
  if p then .ok () else .error fault

@[simp] theorem ensure_of {p : Prop} [Decidable p] {fault : Fault} (h : p) :
    ensure p fault = .ok () := by
  simp [ensure, h]

theorem ensure_eq_ok_iff {p : Prop} [Decidable p] {fault : Fault} :
    ensure p fault = .ok () ↔ p := by
  simp [ensure]

/-- The difference of two lengths, refused where it would be negative. -/
def subtract (minuend subtrahend : Nat) : Checked Nat :=
  if subtrahend ≤ minuend then .ok (minuend - subtrahend) else .error (.negative minuend subtrahend)

theorem subtract_of_le {a b : Nat} (h : b ≤ a) : subtract a b = .ok (a - b) := by
  simp [subtract, h]

theorem subtract_eq_ok_iff {a b d : Nat} : subtract a b = .ok d ↔ b ≤ a ∧ a - b = d := by
  unfold subtract
  split
  · simp_all
  · simp; omega

end RingChannel
