/-!
# Capacities and the growth sequence

Sizes are 64-bit words. A capacity is a power of two below the word bound. A ring that has to grow
walks the sequence that adds one half and rounds up to a power of two, until the room it needs is
there or a step no longer fits in a word.
-/

namespace RingChannel.Capacity

def wordBound : Nat := 1 <<< 64

def wordMax : Nat := wordBound - 1

/-- The most bytes that one object in memory can have: distances inside it are signed words. -/
def byteMax : Nat := wordMax / 2

/-- A power of two that fits in a word; zero is none. -/
def isValid (n : Nat) : Bool :=
  n < wordBound && n == 1 <<< n.log2

theorem isValid_iff {n : Nat} : isValid n = true ↔ ∃ k < 64, n = 1 <<< k := by
  simp only [isValid, wordBound, Nat.one_shiftLeft, Bool.and_eq_true, decide_eq_true_eq,
    beq_iff_eq]
  constructor
  · intro h
    exact ⟨n.log2, (Nat.pow_lt_pow_iff_right (by omega)).1 (h.2 ▸ h.1), h.2⟩
  · rintro ⟨k, hk, rfl⟩
    exact ⟨(Nat.pow_lt_pow_iff_right (by omega)).2 hk, by rw [Nat.log2_two_pow]⟩

def checkedAdd (a b : Nat) : Option Nat :=
  if a + b < wordBound then some (a + b) else none

def roundUp (n : Nat) : Nat :=
  if n ≤ 1 then 1 else 1 <<< ((n - 1).log2 + 1)

theorem le_roundUp (n : Nat) : n ≤ roundUp n := by
  unfold roundUp
  split
  · assumption
  · rw [Nat.one_shiftLeft]
    have := @Nat.lt_log2_self (n - 1)
    omega

theorem roundUp_pos (n : Nat) : 0 < roundUp n := by
  unfold roundUp
  split
  · omega
  · rw [Nat.one_shiftLeft]
    exact Nat.two_pow_pos _

def checkedRoundUp (n : Nat) : Option Nat :=
  if roundUp n < wordBound then some (roundUp n) else none

/-- The capacity after `capacity` in the growth sequence: half as much again, rounded up to a power
of two. -/
def next (capacity : Nat) : Option Nat :=
  (checkedAdd capacity ((capacity + 1) / 2)).bind checkedRoundUp

theorem lt_of_next_eq_some {c d : Nat} (h : next c = some d) : c < d := by
  unfold next checkedAdd checkedRoundUp at h
  split at h
  · simp only [Option.bind_some] at h
    split at h
    · cases h
      have hle := le_roundUp (c + (c + 1) / 2)
      have hpos := roundUp_pos (c + (c + 1) / 2)
      omega
    · cases h
  · cases h

/-- The first member of the growth sequence from `capacity` on that is at least `required`. -/
def firstFrom (capacity required : Nat) : Option Nat :=
  if capacity < required then
    match _h : next capacity with
    | some larger => firstFrom larger required
    | none => none
  else some capacity
termination_by required - capacity
decreasing_by
  have := lt_of_next_eq_some _h
  omega

/-- The capacity that a ring of `capacity` slots grows to so that `needed` slots are free beside
`length` unread items. -/
def growthTarget (capacity length needed : Nat) : Option Nat :=
  (checkedAdd length needed).bind (firstFrom capacity)

end RingChannel.Capacity
