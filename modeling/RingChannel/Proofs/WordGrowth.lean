import RingChannel.Proofs.GrowthSequence

/-!
# The growth sequence on machine words

A step of the growth sequence is said on numbers that have no bound. A machine takes it on words,
which wrap: it halves, adds, and finds the power of two from the number of leading zeros. A sum can
leave the words in two places only, and both are checked. So the words compute what the numbers
say, and the step is refused just when half as much again is beyond the largest power of two that
is a word.
-/

namespace RingChannel.Capacity

namespace Word

def halfUp (c : UInt64) : UInt64 :=
  if 0 < c % 2 then c / 2 + 1 else c / 2

/-- The sum, unless it wraps. A sum that has wrapped is smaller than what was added to. -/
def checkedAdd (a b : UInt64) : Option UInt64 :=
  if a + b < a then none else some (a + b)

/-- The number of zeros before the first one of a positive word. -/
def leadingZeros (n : UInt64) : UInt64 :=
  63 - n.log2

/-- One less than the least power of two that is at least `n`: a one for each digit of `n - 1`. -/
def onesBelow (n : UInt64) : UInt64 :=
  if n ≤ 1 then 0 else UInt64.ofNat wordMax >>> leadingZeros (n - 1)

def checkedRoundUp (n : UInt64) : Option UInt64 :=
  checkedAdd (onesBelow n) 1

def next (c : UInt64) : Option UInt64 :=
  (checkedAdd c (halfUp c)).bind checkedRoundUp

/-! ## What the words stand for -/

theorem toNat_halfUp (c : UInt64) : (halfUp c).toNat = (c.toNat + 1) / 2 := by
  have hrest : (c % 2).toNat = c.toNat % 2 := UInt64.toNat_mod c 2
  have hhalf : (c / 2).toNat = c.toNat / 2 := UInt64.toNat_div c 2
  have hword := c.toNat_lt
  have hodd : 0 < c % 2 ↔ 0 < c.toNat % 2 := by
    rw [UInt64.lt_iff_toNat_lt, hrest]
    rfl
  unfold halfUp
  by_cases hleft : 0 < c % 2
  · have hone : (1 : UInt64).toNat = 1 := rfl
    rw [if_pos hleft, UInt64.toNat_add, hhalf, hone, Nat.mod_eq_of_lt (by omega)]
    have := hodd.1 hleft
    omega
  · rw [if_neg hleft, hhalf]
    have := mt hodd.2 hleft
    omega

theorem toNat_checkedAdd (a b : UInt64) :
    (checkedAdd a b).map UInt64.toNat = Capacity.checkedAdd a.toNat b.toNat := by
  have ha := a.toNat_lt
  have hb := b.toNat_lt
  have hsum := UInt64.toNat_add a b
  have hbound : wordBound = 2 ^ 64 := rfl
  unfold checkedAdd Capacity.checkedAdd
  by_cases hfits : a.toNat + b.toNat < wordBound
  · have hexact : (a + b).toNat = a.toNat + b.toNat := by
      rw [hsum, Nat.mod_eq_of_lt (by omega)]
    have hkept : ¬ a + b < a := by
      rw [UInt64.lt_iff_toNat_lt, hexact]
      omega
    rw [if_neg hkept, if_pos hfits, Option.map_some, hexact]
  · have hless : (a + b).toNat < a.toNat := by
      rw [hsum]
      omega
    have hwrapped : a + b < a := UInt64.lt_iff_toNat_lt.2 hless
    rw [if_pos hwrapped, if_neg hfits]
    rfl

/-- A word of all ones, less its first ones, is one less than a power of two. -/
theorem toNat_shiftRight_ones {zeros : UInt64} {digits : Nat} (hdigits : digits < 64)
    (hzeros : zeros.toNat = 63 - digits) :
    (UInt64.ofNat wordMax >>> zeros).toNat + 1 = 1 <<< (digits + 1) := by
  have hones : (UInt64.ofNat wordMax).toNat = 2 ^ 64 - (0 + 1) := rfl
  have hsplit : 2 ^ (63 - digits) * 2 ^ (digits + 1) = 2 ^ 64 := by
    rw [← Nat.pow_add]
    congr 1
    omega
  have hpow := Nat.two_pow_pos (digits + 1)
  rw [UInt64.toNat_shiftRight, hzeros, Nat.mod_eq_of_lt (by omega), hones,
    Nat.shiftRight_eq_div_pow, ← hsplit, Nat.mul_sub_div 0 _ _ (by omega), Nat.zero_div,
    Nat.zero_add, Nat.one_shiftLeft]
  omega

theorem toNat_leadingZeros (n : UInt64) :
    (leadingZeros n).toNat = 63 - n.toNat.log2 ∧ n.toNat.log2 < 64 := by
  have hlog : n.log2.toNat = n.toNat.log2 := rfl
  have hdigits : n.toNat.log2 < 64 := by
    by_cases hzero : n.toNat = 0
    · rw [hzero]
      decide
    · exact (Nat.log2_lt hzero).2 n.toNat_lt
  have hle : n.log2 ≤ 63 := UInt64.le_iff_toNat_le.2 (Nat.le_of_lt_succ hdigits)
  refine ⟨?_, hdigits⟩
  rw [leadingZeros, UInt64.toNat_sub_of_le 63 _ hle, hlog]
  rfl

theorem toNat_onesBelow (n : UInt64) : (onesBelow n).toNat + 1 = roundUp n.toNat := by
  have hone : n ≤ 1 ↔ n.toNat ≤ 1 := UInt64.le_iff_toNat_le
  unfold onesBelow roundUp
  by_cases hsmall : n ≤ 1
  · rw [if_pos hsmall, if_pos (hone.1 hsmall)]
    rfl
  · have hlarge : ¬ n.toNat ≤ 1 := mt hone.2 hsmall
    have hpred : (n - 1).toNat = n.toNat - 1 :=
      UInt64.toNat_sub_of_le n 1 (UInt64.le_iff_toNat_le.2 (Nat.le_of_not_le hlarge))
    obtain ⟨hzeros, hdigits⟩ := toNat_leadingZeros (n - 1)
    rw [if_neg hsmall, if_neg hlarge, toNat_shiftRight_ones hdigits hzeros, hpred]

theorem toNat_checkedRoundUp (n : UInt64) :
    (checkedRoundUp n).map UInt64.toNat = Capacity.checkedRoundUp n.toNat := by
  have hone : (1 : UInt64).toNat = 1 := rfl
  rw [checkedRoundUp, toNat_checkedAdd, hone, Capacity.checkedAdd, toNat_onesBelow]
  rfl

theorem toNat_next (c : UInt64) : (next c).map UInt64.toNat = Capacity.next c.toNat := by
  have hsum := toNat_checkedAdd c (halfUp c)
  rw [toNat_halfUp] at hsum
  rw [Capacity.next, ← hsum]
  unfold next
  cases checkedAdd c (halfUp c) with
  | none => rfl
  | some sum => exact toNat_checkedRoundUp sum

end Word

/-! ## Where a step leads -/

theorem next_eq_none_iff {c : Nat} : next c = none ↔ 1 <<< 63 < (3 * c + 1) / 2 := by
  rw [next_eq]
  split
  · simp only [reduceCtorEq, false_iff]
    omega
  · simp only [true_iff]
    omega

theorem leastPower_of_next {c d : Nat} (h : next c = some d) : LeastPower ((3 * c + 1) / 2) d := by
  rw [next_eq] at h
  split at h
  · cases h
    exact leastPower_roundUp _
  · cases h

/-- A step from a smaller number is possible as well, and leads no further. -/
theorem exists_next_le {b c e : Nat} (hle : b ≤ c) (h : next c = some e) :
    ∃ d, next b = some d ∧ d ≤ e := by
  have hhalf : (3 * b + 1) / 2 ≤ (3 * c + 1) / 2 := by omega
  rw [next_eq] at h
  split at h
  · cases h
    refine ⟨roundUp ((3 * b + 1) / 2), ?_, roundUp_mono hhalf⟩
    rw [next_eq, if_pos (by omega)]
  · cases h

/-- A step on words computes what it computes on numbers, and so does each part of it: the half
rounded up, the sum with any word, the rounding up of any word. There is no next capacity just when
half as much again, rounded up, is beyond the largest power of two that is a word. Otherwise it is
the least power of two that is at least that, it is larger, a smaller capacity has one as well that
is no larger, and from a power of two it is the double. -/
theorem next_exact (c : UInt64) :
    ((Word.halfUp c).toNat = (c.toNat + 1) / 2 ∧
      (∀ b, (Word.checkedAdd c b).map UInt64.toNat = checkedAdd c.toNat b.toNat) ∧
      (Word.checkedRoundUp c).map UInt64.toNat = checkedRoundUp c.toNat ∧
      (Word.next c).map UInt64.toNat = next c.toNat) ∧
    (next c.toNat = none ↔ 1 <<< 63 < (3 * c.toNat + 1) / 2) ∧
    (∀ d, next c.toNat = some d →
      LeastPower ((3 * c.toNat + 1) / 2) d ∧ (c = 0 → d = 1) ∧ c.toNat < d ∧
        ∀ b ≤ c.toNat, ∃ smaller, next b = some smaller ∧ smaller ≤ d) ∧
    (∀ k < 63, c.toNat = 1 <<< k → next c.toNat = some (2 * c.toNat)) := by
  refine ⟨⟨Word.toNat_halfUp c, Word.toNat_checkedAdd c, Word.toNat_checkedRoundUp c,
    Word.toNat_next c⟩, next_eq_none_iff, ?_, ?_⟩
  · intro d hd
    refine ⟨leastPower_of_next hd, ?_, lt_of_next_eq_some hd, fun b hb => exists_next_le hb hd⟩
    rintro rfl
    cases hd
    rfl
  · intro k hk hc
    rw [hc, next_shift, if_pos hk, Nat.shiftLeft_succ]

/-- The last word with a next capacity is a third of the largest word: half as much again, rounded
up, is the largest power of two that is a word. From the word behind it there is no step. -/
theorem next_exact_limit :
    Capacity.next 6148914691236517205 = some (1 <<< 63) ∧
      Capacity.next 6148914691236517206 = none ∧
      Capacity.next (1 <<< 62) = some (1 <<< 63) := by
  obtain ⟨-, hlast, hsome, -⟩ := next_exact 6148914691236517205
  obtain ⟨-, hbehind, -⟩ := next_exact 6148914691236517206
  obtain ⟨-, -, -, hdouble⟩ := next_exact 4611686018427387904
  obtain ⟨d, hd⟩ := Option.ne_none_iff_exists'.1 (mt hlast.1 (by decide))
  have htop : LeastPower 9223372036854775808 (1 <<< 63) := leastPower_roundUp _
  refine ⟨?_, hbehind.2 (by decide), hdouble 62 (by decide) rfl⟩
  rw [← (hsome d hd).1.unique htop]
  exact hd

end RingChannel.Capacity
