import RingChannel.Capacity

/-!
# The growth sequence

Every step of the growth sequence leads from one word to a larger valid capacity, so the first
member that is large enough is a valid capacity itself, and a larger one if any step was taken.
From a valid capacity each step doubles, so no power of two is left out, and the first member that
is large enough is the least power of two that is.
-/

namespace RingChannel.Capacity

theorem isValid_roundUp {n : Nat} (h : roundUp n < wordBound) : isValid (roundUp n) = true := by
  have hpow : ∃ k, roundUp n = 1 <<< k := by
    unfold roundUp
    split
    · exact ⟨0, rfl⟩
    · exact ⟨_, rfl⟩
  obtain ⟨k, hk⟩ := hpow
  rw [isValid_iff]
  refine ⟨k, ?_, hk⟩
  rw [hk, wordBound, Nat.one_shiftLeft, Nat.one_shiftLeft] at h
  exact (Nat.pow_lt_pow_iff_right (by omega)).1 h

theorem isValid_of_next {c d : Nat} (h : next c = some d) : isValid d = true := by
  unfold next checkedAdd checkedRoundUp at h
  split at h
  · rw [Option.bind_some] at h
    split at h
    · cases h
      exact isValid_roundUp (by assumption)
    · cases h
  · cases h

theorem firstFrom_spec {c required t : Nat} (h : firstFrom c required = some t) :
    required ≤ t ∧ (t = c ∨ c < t ∧ isValid t = true) := by
  fun_induction firstFrom c required with
  | case1 c hlt larger hnext ih =>
      have hstep := lt_of_next_eq_some hnext
      obtain ⟨hle, rfl | ⟨hgrows, hvalid⟩⟩ := ih h
      · exact ⟨hle, .inr ⟨hstep, isValid_of_next hnext⟩⟩
      · exact ⟨hle, .inr ⟨Nat.lt_trans hstep hgrows, hvalid⟩⟩
  | case2 c hlt hnext => cases h
  | case3 c hge =>
      cases h
      exact ⟨Nat.not_lt.1 hge, .inl rfl⟩

/-- A target that room has to be made for is a larger valid capacity with that room. -/
theorem growthTarget_spec {capacity length needed target : Nat}
    (hshort : capacity < length + needed) (h : growthTarget capacity length needed = some target) :
    isValid target = true ∧ capacity < target ∧ length + needed ≤ target := by
  unfold growthTarget checkedAdd at h
  split at h
  · rw [Option.bind_some] at h
    obtain ⟨hle, rfl | ⟨hgrows, hvalid⟩⟩ := firstFrom_spec h
    · omega
    · exact ⟨hvalid, hgrows, hle⟩
  · cases h

/-! ## The least power of two -/

structure LeastPower (n power : Nat) : Prop where
  isPower : ∃ k, power = 1 <<< k
  le : n ≤ power
  least : ∀ k, n ≤ 1 <<< k → power ≤ 1 <<< k

theorem shift_le_iff {j k : Nat} : 1 <<< j ≤ 1 <<< k ↔ j ≤ k := by
  rw [Nat.one_shiftLeft, Nat.one_shiftLeft]
  exact Nat.pow_le_pow_iff_right (by omega)

theorem LeastPower.unique {n a b : Nat} (ha : LeastPower n a) (hb : LeastPower n b) : a = b := by
  rcases ha.isPower with ⟨j, hj⟩
  rcases hb.isPower with ⟨k, hk⟩
  have hab : a ≤ b := hk ▸ ha.least k (hk ▸ hb.le)
  have hba : b ≤ a := hj ▸ hb.least j (hj ▸ ha.le)
  omega

theorem leastPower_double {n k : Nat} (hlt : 1 <<< k < n) (hle : n ≤ 1 <<< (k + 1)) :
    LeastPower n (1 <<< (k + 1)) := by
  refine ⟨⟨k + 1, rfl⟩, hle, ?_⟩
  intro j hj
  have hkj : ¬ j ≤ k := by
    rw [← shift_le_iff]
    omega
  exact shift_le_iff.2 (by omega)

theorem leastPower_roundUp (n : Nat) : LeastPower n (roundUp n) := by
  have hle := le_roundUp n
  unfold roundUp at hle ⊢
  split
  · refine ⟨⟨0, rfl⟩, by assumption, ?_⟩
    intro k _
    exact shift_le_iff.2 (Nat.zero_le k)
  · rename_i hlarge
    rw [if_neg hlarge] at hle
    refine leastPower_double ?_ hle
    have hlog := Nat.log2_self_le (n := n - 1) (by omega)
    rw [Nat.one_shiftLeft]
    omega

theorem LeastPower.eq_roundUp {n power : Nat} (h : LeastPower n power) : power = roundUp n :=
  h.unique (leastPower_roundUp n)

theorem roundUp_mono {m n : Nat} (h : m ≤ n) : roundUp m ≤ roundUp n := by
  rcases (leastPower_roundUp n).isPower with ⟨k, hk⟩
  rw [hk]
  apply (leastPower_roundUp m).least
  rw [← hk]
  exact Nat.le_trans h (le_roundUp n)

theorem shift_lt_wordBound_iff {k : Nat} : 1 <<< k < wordBound ↔ k < 64 := by
  have hiff : 1 <<< 64 ≤ 1 <<< k ↔ 64 ≤ k := shift_le_iff
  unfold wordBound
  omega

/-- The last number that is rounded up to a word is the largest power of two among the words. -/
theorem roundUp_lt_wordBound_iff {n : Nat} : roundUp n < wordBound ↔ n ≤ 1 <<< 63 := by
  have hround := leastPower_roundUp n
  obtain ⟨k, hk⟩ := hround.isPower
  rw [hk, shift_lt_wordBound_iff]
  constructor
  · intro hword
    have htop : 1 <<< k ≤ 1 <<< 63 := shift_le_iff.2 (by omega)
    exact Nat.le_trans (hk ▸ hround.le) htop
  · intro hle
    have hleast := hround.least 63 hle
    rw [hk, shift_le_iff] at hleast
    omega

/-! ## One step of the sequence -/

theorem next_eq (c : Nat) :
    next c = if (3 * c + 1) / 2 ≤ 1 <<< 63 then some (roundUp ((3 * c + 1) / 2)) else none := by
  have hsum : c + (c + 1) / 2 = (3 * c + 1) / 2 := by omega
  unfold next checkedAdd checkedRoundUp
  rw [hsum]
  by_cases hword : (3 * c + 1) / 2 < wordBound
  · simp only [hword, if_true, Option.bind_some, roundUp_lt_wordBound_iff]
  · have htop : 1 <<< 63 < wordBound := shift_lt_wordBound_iff.2 (by omega)
    rw [if_neg hword, if_neg (by omega)]
    rfl

/-! ## The sequence from a valid capacity -/

theorem next_shift (k : Nat) : next (1 <<< k) = if k < 63 then some (1 <<< (k + 1)) else none := by
  have hpos : 1 <<< 0 ≤ 1 <<< k := shift_le_iff.2 (Nat.zero_le k)
  have hdouble : 1 <<< (k + 1) = 2 * 1 <<< k := Nat.shiftLeft_succ 1 k
  have hround : roundUp ((3 * 1 <<< k + 1) / 2) = 1 <<< (k + 1) :=
    (leastPower_double (by omega) (by omega)).eq_roundUp.symm
  have hfits : (3 * 1 <<< k + 1) / 2 ≤ 1 <<< 63 ↔ k < 63 := by
    rw [← roundUp_lt_wordBound_iff, hround, shift_lt_wordBound_iff]
    omega
  rw [next_eq, hround]
  simp only [hfits]

/-- The first member that is large enough is the least power of two that is, if that is a word. -/
theorem firstFrom_eq {capacity required : Nat} (hvalid : isValid capacity = true)
    (hshort : capacity < required) :
    firstFrom capacity required =
      if required ≤ 1 <<< 63 then some (roundUp required) else none := by
  fun_induction firstFrom capacity required with
  | case1 capacity hlt larger hnext ih =>
      rcases isValid_iff.1 hvalid with ⟨k, hk, rfl⟩
      rw [next_shift] at hnext
      split at hnext
      · cases hnext
        by_cases hmore : 1 <<< (k + 1) < required
        · exact ih (isValid_iff.2 ⟨k + 1, by omega, rfl⟩) hmore
        · have hle : required ≤ 1 <<< (k + 1) := Nat.not_lt.1 hmore
          have hround := (leastPower_double hlt hle).eq_roundUp
          have htop : 1 <<< (k + 1) ≤ 1 <<< 63 := shift_le_iff.2 (by omega)
          rw [firstFrom, if_neg hmore, if_pos (Nat.le_trans hle htop), hround]
      · cases hnext
  | case2 capacity hlt hnext =>
      rcases isValid_iff.1 hvalid with ⟨k, hk, rfl⟩
      rw [next_shift] at hnext
      split at hnext
      · cases hnext
      · have htop : 1 <<< 63 ≤ 1 <<< k := shift_le_iff.2 (by omega)
        rw [if_neg (by omega)]
  | case3 capacity hge => exact absurd hshort hge

theorem growthTarget_eq {capacity length needed : Nat} (hvalid : isValid capacity = true)
    (hshort : capacity < length + needed) :
    growthTarget capacity length needed =
      if length + needed ≤ 1 <<< 63 then some (roundUp (length + needed)) else none := by
  unfold growthTarget checkedAdd
  split
  · rw [Option.bind_some, firstFrom_eq hvalid hshort]
  · rename_i hword
    have htop : 1 <<< 63 ≤ wordBound := shift_le_iff.2 (by omega)
    unfold wordBound at hword htop
    rw [if_neg (by omega)]
    rfl

end RingChannel.Capacity
