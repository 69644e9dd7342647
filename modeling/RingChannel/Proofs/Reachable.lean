import RingChannel.Proofs.Refinement.Session

/-!
# Reachable sessions

A session is reachable if it starts around a new ring, of any kind and with the cursors anywhere, or
if a step of a reachable session leads to it. Every reachable session stands for a session on a
queue, so what holds of a ring that holds a queue holds in every reachable session.
-/

namespace RingChannel

variable {α : Type} [Item α]

namespace Session

inductive Reachable : Session α → Prop where
  | around {limit capacity : Nat} {config : Config} {cursor : UInt64} {ring : RingBuffer α}
      (hring : RingBuffer.create limit capacity config cursor = .ok ring) (kind : Kind)
      (bytes : Nat) : Reachable (around kind bytes ring)
  | step {session next : Session α} {step : Step α} {answer : StepAnswer α}
      (h : Reachable session) (hadmits : session.Admits step)
      (hstep : session.step step = .ok (answer, next)) : Reachable next

/-- Every session that starts is reachable, of whatever kind and wherever its cursors start. -/
theorem reachable_of_start {kind : Kind} {limit capacity : Nat} {config : Config} {cursor : UInt64}
    {session : Session α} (h : start kind limit capacity config cursor = .ok session) :
    session.Reachable := by
  rcases start_eq_around h with ⟨ring, begins, hring, rfl⟩
  exact .around hring kind (bound limit)

theorem Reachable.holds {session : Session α} (h : session.Reachable) :
    ∃ model, session.Holds model := by
  induction h with
  | around hring kind bytes => exact ⟨_, holds_around hring kind bytes⟩
  | step _ hadmits hstep ih =>
      rcases ih with ⟨model, hmodel⟩
      rcases hmodel.step hadmits with ⟨next, hrun, hnext⟩
      rw [hrun] at hstep
      cases hstep
      exact ⟨_, hnext⟩

/-- A run of a reachable session leads to a reachable one. -/
theorem Reachable.run {session last : Session α} (h : session.Reachable) {steps : List (Step α)}
    (hsteps : session.AdmitsAll steps) {answers : List (StepAnswer α)}
    (hrun : session.run steps = .ok (answers, last)) : last.Reachable := by
  induction steps generalizing session answers with
  | nil =>
      cases hrun
      exact h
  | cons step rest ih =>
      simp only [Session.run, bind_eq_ok_iff] at hrun
      rcases hrun with ⟨⟨answer, next⟩, hstep, ⟨others, later⟩, hrest, hpair⟩
      cases hpair
      exact ih (h.step hsteps.1 hstep) (hsteps.2 answer next hstep) hrest

end Session

end RingChannel
