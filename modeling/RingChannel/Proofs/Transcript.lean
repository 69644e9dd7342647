import RingChannel.Proofs.Refinement.Session

/-!
# Transcripts

The transcript of a channel is all that its caller learns: whether there is a channel at all, how
each step is answered, and how the handles are given up in the end; or the rule that a step breaks,
if one does. It is the transcript of a queue, and a queue has no cursors. So nothing that a caller
learns depends on where they started.
-/

namespace RingChannel

variable {α : Type} [Item α]

namespace Session

/-- The answers to the steps, and how giving up both handles goes after them. -/
def transcript (session : Session α) (steps : List (Step α)) :
    Checked (List (StepAnswer α) × Ending α) := do
  let (answers, last) ← session.run steps
  let ending ← last.finish
  .ok (answers, ending)

def startTranscript (kind : Kind) (limit capacity : Nat) (config : Config) (cursor : UInt64)
    (steps : List (Step α)) : Except RingError (Checked (List (StepAnswer α) × Ending α)) := do
  let session ← start kind limit capacity config cursor
  .ok (session.transcript steps)

theorem transcript_cons (session : Session α) (step : Step α) (rest : List (Step α)) :
    session.transcript (step :: rest) = (do
      let (answer, next) ← session.step step
      let (answers, ending) ← next.transcript rest
      .ok (answer :: answers, ending)) := by
  unfold transcript
  rw [run]
  cases session.step step with
  | error fault => rfl
  | ok first =>
      rcases first with ⟨answer, next⟩
      simp only [ok_bind]
      cases next.run rest with
      | error fault => rfl
      | ok others =>
          rcases others with ⟨answers, last⟩
          simp only [ok_bind]
          cases last.finish <;> rfl

end Session

namespace QueueSession

/-- The rule that a step breaks, if it breaks one: a bare ring can only be regrown to a valid
capacity that is larger than the one it has. -/
def breach (session : QueueSession α) : Step α → Option Fault
  | .regrow capacity =>
      if session.face = .bare ∧ (session.producing || session.consuming) = true ∧
          ¬ (Capacity.isValid capacity = true ∧ session.queue.capacity < capacity) then
        some (.badRegrow session.queue.capacity capacity)
      else none
  | _ => none

def transcript (session : QueueSession α) :
    List (Step α) → Checked (List (StepAnswer α) × Session.Ending α)
  | [] => .ok ([], session.finish)
  | step :: rest =>
      match session.breach step with
      | some fault => .error fault
      | none => do
          let first := session.step step
          let (answers, ending) ← first.2.transcript rest
          .ok (first.1 :: answers, ending)

end QueueSession

namespace Session

namespace Holds

variable {session : Session α} {model : QueueSession α}

theorem step_of_breach (h : session.Holds model) {step : Step α} {fault : Fault}
    (hbreach : model.breach step = some fault) : session.step step = .error fault := by
  cases step with
  | regrow capacity =>
      simp only [QueueSession.breach] at hbreach
      split at hbreach
      · rename_i hbroken
        rcases hbroken with ⟨hface, hused, hbad⟩
        cases hbreach
        have hface : session.channel.face = .bare := h.face_eq.trans hface
        have hused : (session.producing || session.consuming) = true := by
          rw [h.producing_eq, h.consuming_eq]
          exact hused
        have hregrow : session.channel.ring.regrow session.limit capacity =
            .error (.badRegrow model.queue.capacity capacity) := by
          unfold RingBuffer.regrow ensure
          rw [h.ring.capacity_eq, if_neg hbad]
          rfl
        unfold Session.step Session.take Session.regrow
        simp only [hface]
        rw [if_pos hused, hregrow]
        rfl
      · cases hbreach
  | produce | consume | setLimit | dropProducer | dropConsumer | contend => cases hbreach

/-- A step that breaks no rule is answered as on the queue, also where the caller has nothing to
keep to because the ring is gone. -/
theorem step_of_no_breach (h : session.Holds model) {step : Step α}
    (hbreach : model.breach step = none) :
    ∃ next, session.step step = .ok ((model.step step).1, next) ∧
      next.Holds (model.step step).2 := by
  by_cases hadmits : session.Admits step
  · exact h.step hadmits
  · cases step with
    | regrow capacity =>
        simp only [Session.Admits, Classical.not_imp] at hadmits
        rcases hadmits with ⟨hface, hbad⟩
        rw [h.ring.capacity_eq] at hbad
        have hmodelFace : model.face = .bare := h.face_eq.symm.trans hface
        have hgone : (model.producing || model.consuming) = false := by
          apply Bool.eq_false_iff.2
          intro hused
          have hbroken : model.breach (.regrow capacity) ≠ none := by
            simp only [QueueSession.breach]
            rw [if_pos ⟨hmodelFace, hused, hbad⟩]
            exact Option.some_ne_none _
          exact hbroken hbreach
        have htake : session.take (.regrow capacity) = .ok (session.refuse .gone) := by
          unfold Session.take Session.regrow
          simp only [hface, h.producing_eq, h.consuming_eq, hgone, Bool.false_eq_true, if_false]
        have hstay : model.take (.regrow capacity) = (.gone, [], [], model) := by
          unfold QueueSession.take
          simp only [hmodelFace, hgone, Bool.false_eq_true, if_false]
        unfold Session.step QueueSession.step
        simp only [htake, hstay, Session.refuse, h.status, ok_bind]
        exact ⟨session, rfl, h⟩
    | produce | consume | setLimit | dropProducer | dropConsumer | contend =>
        exact absurd trivial hadmits

/-- The transcript of a ring is that of its queue. -/
theorem transcript_eq (h : session.Holds model) (steps : List (Step α)) :
    session.transcript steps = model.transcript steps := by
  induction steps generalizing session model with
  | nil =>
      unfold Session.transcript
      simp only [Session.run, h.finish, ok_bind]
      rfl
  | cons step rest ih =>
      rw [transcript_cons]
      unfold QueueSession.transcript
      cases hbreach : model.breach step with
      | some fault =>
          rw [h.step_of_breach hbreach]
          rfl
      | none =>
          rcases h.step_of_no_breach hbreach with ⟨next, hstep, hnext⟩
          simp only [hstep, ok_bind, ih hnext]

end Holds

/-- Whether there is a new channel depends on its capacity and on the memory, and its transcript is
that of an empty queue. -/
theorem startTranscript_eq (kind : Kind) (limit capacity : Nat) (config : Config) (cursor : UInt64)
    (steps : List (Step α)) :
    startTranscript kind limit capacity config cursor steps =
      if Capacity.isValid capacity = true then
        if Store.fits α (bound limit) capacity = true then
          .ok ((QueueSession.around kind (bound limit) capacity config.metered).transcript steps)
        else .error (.allocationFailed capacity)
      else .error (.invalidCapacity capacity) := by
  by_cases hvalid : Capacity.isValid capacity = true
  · rw [if_pos hvalid]
    by_cases hfits : Store.fits α (bound limit) capacity = true
    · rw [if_pos hfits]
      rcases RingBuffer.create_eq_ok_iff.2 ⟨hvalid, hfits⟩ with ⟨ring, hring⟩
      have hstart : start kind limit capacity config cursor =
          .ok (around kind (bound limit) ring) := by
        unfold start Channel.create
        rw [hring]
        rfl
      unfold startTranscript
      rw [hstart]
      exact congrArg Except.ok ((holds_around hring kind (bound limit)).transcript_eq steps)
    · rw [if_neg hfits]
      unfold startTranscript start Channel.create RingBuffer.create
      simp only [hvalid, hfits]
      rfl
  · rw [if_neg hvalid]
    unfold startTranscript start Channel.create RingBuffer.create
    simp only [hvalid]
    rfl

/-- Wherever the cursors of a ring start, and whether or not they wrap on the way, its caller learns
the same. -/
theorem startTranscript_cursor (kind : Kind) (limit capacity : Nat) (config : Config)
    (cursor cursor' : UInt64) (steps : List (Step α)) :
    startTranscript kind limit capacity config cursor steps =
      startTranscript kind limit capacity config cursor' steps := by
  rw [startTranscript_eq, startTranscript_eq]

end Session

end RingChannel
