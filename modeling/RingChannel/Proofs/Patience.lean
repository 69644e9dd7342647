import Mathlib.Data.List.DropRight
import Mathlib.Data.List.Forall2
import RingChannel.Backoff
import RingChannel.Proofs.GrowthSequence

/-!
# Patience

How far a backoff has come can be told from the calls alone, by two counts: the calls since the last
reset, of which the first seven take a step whatever they are, and the calls behind those that
yield, of which four more take one. Spins behind the first seven count for nothing, so they never
end the waiting. A snooze and a wait count alike, and nothing that a backoff does or shows tells
them apart.
-/

namespace RingChannel.Backoff

/-! ## One call -/

def Action.yields : Action → Bool
  | .snooze | .wait => true
  | .spin | .reset => false

theorem spinLimit_lt_yieldLimit : spinLimit < yieldLimit := by
  decide

/-- When the waiting is over a snooze changes nothing, so a wait that leaves it out then is a snooze
all the same. -/
theorem wait_eq_snooze (backoff : Backoff) : backoff.wait = backoff.snooze := by
  unfold wait
  by_cases hover : backoff.isCompleted = true
  · have hend : yieldLimit < backoff.step := of_decide_eq_true hover
    have hspun : spinLimit < backoff.step := Nat.lt_trans spinLimit_lt_yieldLimit hend
    rw [if_pos hover, snooze, if_neg (Nat.not_le.2 hspun), if_neg (Nat.not_le.2 hend)]
  · rw [if_neg hover]

theorem waitRest_eq_snoozeRest (backoff : Backoff) : backoff.waitRest = backoff.snoozeRest := by
  unfold waitRest
  by_cases hover : backoff.isCompleted = true
  · have hend : yieldLimit < backoff.step := of_decide_eq_true hover
    have hspun : spinLimit < backoff.step := Nat.lt_trans spinLimit_lt_yieldLimit hend
    rw [if_pos hover, snoozeRest, if_neg (Nat.not_le.2 hspun)]
  · rw [if_neg hover]

theorem snooze_of_yields {action : Action} (h : action.yields = true) (backoff : Backoff) :
    backoff.rest action = backoff.snoozeRest ∧ backoff.apply action = backoff.snooze := by
  cases action with
  | snooze => exact ⟨rfl, rfl⟩
  | wait => exact ⟨waitRest_eq_snoozeRest backoff, wait_eq_snooze backoff⟩
  | spin | reset => cases h

theorem isCompleted_spin (backoff : Backoff) : backoff.spin.isCompleted = backoff.isCompleted := by
  unfold spin
  by_cases hspins : backoff.step ≤ spinLimit
  · have hafter : ¬ yieldLimit < backoff.step + 1 :=
      Nat.not_lt.2 (Nat.lt_of_le_of_lt hspins spinLimit_lt_yieldLimit)
    have hbefore : ¬ yieldLimit < backoff.step := mt Nat.lt_succ_of_lt hafter
    simp only [if_pos hspins, isCompleted, hafter, hbefore]
  · rw [if_neg hspins]

/-- Whatever call it is that pauses, it pauses as often as a spin. -/
theorem eq_of_rest_eq_pauses {backoff : Backoff} {action : Action} {count : Nat}
    (h : backoff.rest action = .pauses count) : count = 1 <<< backoff.spinShift := by
  have hsnooze : backoff.snoozeRest = .pauses count → count = 1 <<< backoff.spinShift := by
    intro hrest
    unfold snoozeRest at hrest
    split at hrest
    · exact (Rest.pauses.inj hrest).symm
    · cases hrest
  cases action with
  | spin => exact (Rest.pauses.inj h).symm
  | snooze => exact hsnooze h
  | wait => exact hsnooze (waitRest_eq_snoozeRest backoff ▸ h)
  | reset => cases h

/-- While a backoff spins, every call takes a step. -/
theorem step_apply_of_spins {backoff : Backoff} {action : Action} (h : backoff.step ≤ spinLimit)
    (hcall : action ≠ .reset) : (backoff.apply action).step = backoff.step + 1 := by
  cases action with
  | spin => simp only [apply, spin, if_pos h]
  | snooze => simp only [apply, snooze, spin, if_pos h]
  | wait => simp only [apply, wait_eq_snooze, snooze, spin, if_pos h]
  | reset => exact absurd rfl hcall

/-- Behind the spinning only a call that yields takes a step, and only until the waiting is over. -/
theorem step_apply_of_spun {backoff : Backoff} {action : Action} (h : spinLimit < backoff.step)
    (hcall : action ≠ .reset) :
    (backoff.apply action).step =
      if action.yields = true ∧ backoff.step ≤ yieldLimit then backoff.step + 1
      else backoff.step := by
  have hspun : ¬ backoff.step ≤ spinLimit := Nat.not_le.2 h
  have hsnooze : backoff.snooze.step =
      if backoff.step ≤ yieldLimit then backoff.step + 1 else backoff.step := by
    rw [snooze, if_neg hspun]
    split <;> rfl
  cases action with
  | spin => simp [apply, spin, Action.yields, hspun]
  | snooze => simpa [apply, Action.yields] using hsnooze
  | wait => simpa [apply, wait_eq_snooze, Action.yields] using hsnooze
  | reset => exact absurd rfl hcall

/-! ## The calls since the last reset -/

def sinceReset (actions : List Action) : List Action :=
  actions.rtakeWhile fun action => action != .reset

def lateYields (since : List Action) : Nat :=
  (since.drop (spinLimit + 1)).countP Action.yields

theorem run_concat (actions : List Action) (action : Action) :
    run (actions ++ [action]) = (run actions).apply action :=
  List.foldl_append

theorem run_reset (earlier later : List Action) : run (earlier ++ .reset :: later) = run later :=
  List.foldl_append

theorem reset_not_mem_sinceReset (actions : List Action) : .reset ∉ sinceReset actions := by
  intro hmem
  unfold sinceReset at hmem
  exact absurd (List.mem_rtakeWhile_imp hmem) (by decide)

theorem sinceReset_concat_reset (actions : List Action) : sinceReset (actions ++ [.reset]) = [] :=
  List.rtakeWhile_concat_neg _ _ _ (by decide)

theorem sinceReset_concat {action : Action} (h : action ≠ .reset) (actions : List Action) :
    sinceReset (actions ++ [action]) = sinceReset actions ++ [action] := by
  have hkept : (action != .reset) = true := bne_iff_ne.2 h
  exact List.rtakeWhile_concat_pos _ _ _ hkept

theorem run_sinceReset (actions : List Action) : run (sinceReset actions) = run actions := by
  induction actions using List.reverseRecOn with
  | nil => rfl
  | append_singleton actions action ih =>
      by_cases hcall : action = .reset
      · rw [hcall, sinceReset_concat_reset, run_reset]
      · rw [sinceReset_concat hcall, run_concat, run_concat, ih]

theorem lateYields_of_le {since : List Action} (h : since.length ≤ spinLimit + 1) :
    lateYields since = 0 := by
  rw [lateYields, List.drop_eq_nil_of_le h, List.countP_nil]

theorem lateYields_concat {since : List Action} (h : spinLimit < since.length) (action : Action) :
    lateYields (since ++ [action]) =
      if action.yields = true then lateYields since + 1 else lateYields since := by
  unfold lateYields
  rw [List.drop_append_of_le_length h, List.countP_append, List.countP_singleton]
  split <;> rfl

/-- Without a reset on the way a backoff spins through its first seven calls, and of those behind
them the first four that yield take it to the end. -/
theorem step_run_of_no_reset {since : List Action} (h : .reset ∉ since) :
    (run since).step =
      min since.length (spinLimit + 1) + min (lateYields since) (yieldLimit - spinLimit) := by
  induction since using List.reverseRecOn with
  | nil => rfl
  | append_singleton since action ih =>
      have hcall : action ≠ .reset := fun heq => h (by simp [heq])
      have hstep := ih fun hmem => h (List.mem_append_left _ hmem)
      rw [run_concat, List.length_append, List.length_singleton]
      -- the step tells the two phases apart, and so does the number of calls before this one
      by_cases hspins : since.length ≤ spinLimit
      · rw [lateYields_of_le (Nat.le_succ_of_le hspins)] at hstep
        have hcount : (since ++ [action]).length ≤ spinLimit + 1 := by
          rw [List.length_append, List.length_singleton]
          exact Nat.succ_le_succ hspins
        rw [step_apply_of_spins (by omega) hcall, lateYields_of_le hcount]
        omega
      · have hlimits := spinLimit_lt_yieldLimit
        rw [step_apply_of_spun (by omega) hcall, lateYields_concat (Nat.not_le.1 hspins)]
        by_cases hyields : action.yields = true
        · simp only [hyields, true_and, if_true]
          split <;> omega
        · rw [if_neg hyields, if_neg fun hlate => hyields hlate.1]
          omega

theorem step_run (actions : List Action) :
    (run actions).step =
      min (sinceReset actions).length (spinLimit + 1) +
        min (lateYields (sinceReset actions)) (yieldLimit - spinLimit) := by
  rw [← run_sinceReset]
  exact step_run_of_no_reset (reset_not_mem_sinceReset actions)

theorem lateYields_le (since : List Action) :
    lateYields since ≤ since.length - (spinLimit + 1) := by
  rw [← List.length_drop]
  exact List.countP_le_length

/-- The waiting is over just when the calls that yield behind the spinning have used it up. -/
theorem isCompleted_run_iff (actions : List Action) :
    (run actions).isCompleted = true ↔
      yieldLimit - spinLimit ≤ lateYields (sinceReset actions) := by
  have hlimits := spinLimit_lt_yieldLimit
  have hlate := lateYields_le (sinceReset actions)
  rw [isCompleted, decide_eq_true_eq, step_run]
  omega

theorem isCompleted_run_of_spins {actions : List Action}
    (h : ∀ action ∈ sinceReset actions, action = .spin) : (run actions).isCompleted = false := by
  have hnone : lateYields (sinceReset actions) = 0 := by
    apply List.countP_eq_zero.2
    intro action hmem
    rw [h action (List.mem_of_mem_drop hmem)]
    decide
  rw [← Bool.not_eq_true, isCompleted_run_iff, hnone]
  decide

theorem isCompleted_run_append_spins (actions : List Action) (spins : Nat) :
    (run (actions ++ List.replicate spins .spin)).isCompleted = (run actions).isCompleted := by
  induction spins with
  | zero => rw [List.replicate_zero, List.append_nil]
  | succ spins ih =>
      rw [List.replicate_succ', ← List.append_assoc, run_concat, ← ih]
      exact isCompleted_spin _

theorem spinShift_run (actions : List Action) :
    (run actions).spinShift = min (sinceReset actions).length spinLimit := by
  have hlate := lateYields_le (sinceReset actions)
  rw [spinShift, step_run]
  omega

/-! ## What can be seen -/

/-- One call may stand for the other: it is the same, or both yield once the spinning is over. -/
def Action.Interchangeable (action other : Action) : Prop :=
  action = other ∨ action.yields = true ∧ other.yields = true

instance (action other : Action) : Decidable (action.Interchangeable other) :=
  inferInstanceAs (Decidable (_ ∨ _))

/-- What each of a sequence of calls does with its time, and the backoff that it leaves. -/
def trail (backoff : Backoff) : List Action → List (Rest × Backoff)
  | [] => []
  | action :: actions =>
      let next := backoff.apply action
      (backoff.rest action, next) :: next.trail actions

theorem trail_append (backoff : Backoff) (earlier later : List Action) :
    backoff.trail (earlier ++ later) =
      backoff.trail earlier ++ (earlier.foldl apply backoff).trail later := by
  induction earlier generalizing backoff with
  | nil => rfl
  | cons action earlier ih =>
      rw [List.cons_append, trail, ih]
      rfl

theorem Action.Interchangeable.same {action other : Action} (h : action.Interchangeable other)
    (backoff : Backoff) :
    backoff.rest action = backoff.rest other ∧ backoff.apply action = backoff.apply other := by
  rcases h with rfl | ⟨hyields, hother⟩
  · exact ⟨rfl, rfl⟩
  · obtain ⟨hrest, hnext⟩ := snooze_of_yields hyields backoff
    obtain ⟨hrest', hnext'⟩ := snooze_of_yields hother backoff
    exact ⟨hrest.trans hrest'.symm, hnext.trans hnext'.symm⟩

theorem trail_of_interchangeable {actions others : List Action}
    (h : List.Forall₂ Action.Interchangeable actions others) (backoff : Backoff) :
    backoff.trail others = backoff.trail actions := by
  induction h generalizing backoff with
  | nil => rfl
  | cons hcall _ ih =>
      obtain ⟨hrest, hnext⟩ := hcall.same backoff
      rw [trail, trail, hrest, hnext, ih]

/-- A backoff is told by counting calls: those since the last reset, of which the first seven take a
step each, and the snoozes and waits behind them, of which the first four do. With the fourth of
these the waiting is over; spins do not bring that about, however many there are. A reset starts the
count again. Where a snooze stands for a wait, or a wait for a snooze, each call still does the same
and leaves the same. And no call pauses more than 64 times. -/
theorem run_counted (actions : List Action) :
    let since := sinceReset actions
    let late := (since.drop 7).countP Action.yields
    (run actions).step = min since.length 7 + min late 4 ∧
    ((run actions).isCompleted = true ↔ 4 ≤ late) ∧
    ((∀ action ∈ since, action = .spin) → (run actions).isCompleted = false) ∧
    (∀ spins,
      (run (actions ++ List.replicate spins .spin)).isCompleted = (run actions).isCompleted) ∧
    (∀ later, run (actions ++ .reset :: later) = run later ∧
      fresh.trail (actions ++ .reset :: later) =
        fresh.trail actions ++ (.nothing, fresh) :: fresh.trail later) ∧
    (∀ others, List.Forall₂ Action.Interchangeable actions others →
      fresh.trail others = fresh.trail actions) ∧
    (run actions).spinShift = min since.length 6 ∧
    ∀ action count, (run actions).rest action = .pauses count →
      count = 1 <<< (run actions).spinShift ∧ count ≤ 1 <<< 6 := by
  intro since late
  refine ⟨step_run actions, isCompleted_run_iff actions, isCompleted_run_of_spins,
    isCompleted_run_append_spins actions, ?_, ?_, spinShift_run actions, ?_⟩
  · intro later
    exact ⟨run_reset actions later, trail_append fresh actions _⟩
  · intro others hothers
    exact trail_of_interchangeable hothers fresh
  · intro action count hrest
    have hcount := eq_of_rest_eq_pauses hrest
    refine ⟨hcount, ?_⟩
    rw [hcount]
    exact Capacity.shift_le_iff.2 (Nat.min_le_right _ _)

/-- Twelve calls after a reset, three late ones among them that yield: the next snooze ends the
waiting, a thousand spins do not, and it makes no difference which of the calls snooze and which
wait. -/
theorem run_counted_mixed :
    let actions : List Action := [.wait, .snooze, .reset, .spin, .snooze, .wait, .spin, .spin,
      .snooze, .wait, .spin, .wait, .snooze, .spin, .wait]
    let others : List Action := [.wait, .wait, .reset, .spin, .wait, .wait, .spin, .spin,
      .snooze, .snooze, .spin, .snooze, .wait, .spin, .wait]
    (run actions).step = 10 ∧ (run actions).isCompleted = false ∧
      (run (actions ++ [.snooze])).isCompleted = true ∧
      (run (actions ++ List.replicate 1000 .spin)).isCompleted = false ∧
      (run (actions ++ .reset :: List.replicate 1000 .spin)).isCompleted = false ∧
      fresh.trail others = fresh.trail actions := by
  intro actions others
  obtain ⟨hstep, hdone, -, hspins, hreset, hsame, -⟩ := run_counted actions
  have hmore : (run actions).isCompleted = false := by
    rw [← Bool.not_eq_true, hdone]
    decide
  have hspinning : (run (List.replicate 1000 .spin)).isCompleted = false :=
    (run_counted []).2.2.2.1 1000
  have hothers : List.Forall₂ Action.Interchangeable actions others := by decide
  refine ⟨hstep, hmore, ?_, ?_, ?_, hsame others hothers⟩
  · exact (run_counted (actions ++ [.snooze])).2.1.2 (by decide)
  · rw [hspins, hmore]
  · rw [(hreset _).1, hspinning]

end RingChannel.Backoff
