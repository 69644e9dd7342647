import RingChannel.Proofs.Counting.Sightings
import RingChannel.Proofs.Queue.Uncounted
import RingChannel.Proofs.Transcript

/-!
# The configuration does not show

A ring may count what it does, and it may give up the fences around its cursors. What its caller
learns is the same, but for the counts: without metrics they are zero wherever they are seen, and
with metrics they do not depend on the fences.
-/

namespace RingChannel

variable {α : Type}

/-! ## Answers without their counts -/

def StepReply.uncounted : StepReply α → StepReply α
  | .called reply nested => .called reply.uncounted (nested.map uncountedEntry)
  | reply => reply

def StepAnswer.uncounted (answer : StepAnswer α) : StepAnswer α :=
  { answer with reply := answer.reply.uncounted, status := answer.status.map Status.uncounted }

theorem StepReply.nested_uncounted (reply : StepReply α) :
    reply.uncounted.nested.flatMap Prod.snd =
      (reply.nested.flatMap Prod.snd).map Answer.uncounted := by
  cases reply with
  | called reply nested =>
      simp only [StepReply.uncounted, StepReply.nested, List.flatMap_map, List.map_flatMap]
      rfl
  | limitSet | dropped | regrown | contended | gone | unsupported => rfl

theorem Reply.shown_uncounted (reply : Reply α) :
    reply.uncounted.shown = reply.shown.map Status.uncounted := by
  cases reply <;> rfl

theorem Reply.lost_uncounted (reply : Reply α) (destroyed : List α) :
    reply.uncounted.lost destroyed = reply.lost destroyed := by
  cases reply <;> rfl

def Sighting.uncounted (sighting : Sighting) : Sighting :=
  { sighting with seen := sighting.seen.map Status.uncounted }

theorem Sighting.counters_uncounted (sighting : Sighting) :
    ∀ status ∈ sighting.uncounted.seen, status.counters = .zero := by
  intro status hstatus
  rcases List.mem_map.1 hstatus with ⟨counted, -, rfl⟩
  rfl

theorem Answer.sighting_uncounted (answer : Answer α) :
    answer.uncounted.sighting = answer.sighting.uncounted := by
  unfold sighting Sighting.uncounted
  simp only [uncounted, Reply.lost_uncounted, Reply.shown_uncounted, List.map_append, List.map]

theorem StepAnswer.sighting_uncounted (answer : StepAnswer α) :
    answer.uncounted.sighting = answer.sighting.uncounted := by
  rcases answer with ⟨reply, status, destroyed, events⟩
  have hstatus : (status.map Status.uncounted).toList = status.toList.map Status.uncounted := by
    cases status <;> rfl
  cases reply with
  | called reply nested =>
      simp only [sighting, uncounted, StepReply.uncounted, Sighting.uncounted,
        Reply.lost_uncounted, Reply.shown_uncounted, hstatus, List.map_append]
  | limitSet | dropped | regrown | contended | gone | unsupported =>
      simp only [sighting, uncounted, StepReply.uncounted, Sighting.uncounted, hstatus]

theorem StepAnswer.sightings_uncounted (answer : StepAnswer α) :
    answer.uncounted.sightings = answer.sightings.map Sighting.uncounted := by
  unfold sightings
  rw [sighting_uncounted]
  simp only [uncounted, StepReply.nested_uncounted, List.map_append, List.map_map, List.map]
  congr 1
  exact List.map_congr_left fun nested _ => nested.sighting_uncounted

namespace QueueSession

variable [Item α]

def uncounted (session : QueueSession α) : QueueSession α :=
  { session with queue := session.queue.uncounted }

omit [Item α] in
theorem status_uncounted (session : QueueSession α) :
    session.uncounted.status = session.status.map Status.uncounted := by
  rcases session with ⟨face, queue, limit, producing, consuming⟩
  cases producing <;> cases consuming <;> rfl

theorem drop_uncounted (session : QueueSession α) (role : Role) :
    session.uncounted.drop role = Prod.map id (Prod.map id uncounted) (session.drop role) := by
  rcases session with ⟨face, queue, limit, producing, consuming⟩
  cases role <;> cases producing <;> cases consuming <;> rfl

theorem take_uncounted (session : QueueSession α) (step : Step α) :
    session.uncounted.take step =
      Prod.map StepReply.uncounted (Prod.map id (Prod.map id uncounted)) (session.take step) := by
  rcases session with ⟨face, queue, limit, producing, consuming⟩
  cases step with
  | produce call script =>
      cases producing with
      | false => rfl
      | true =>
          have hblind := Queue.Meanwhile.blind_ofScript Queue.consumeInside_uncounted consuming
            (script : List (List (ConsumerCall α)))
          have hproduced := Queue.produce_uncounted hblind limit call face queue
          simp only [take, uncounted, producerMeanwhile, if_true, hproduced]
          rfl
  | consume call script =>
      cases consuming with
      | false => rfl
      | true =>
          have hblind := Queue.Meanwhile.blind_ofScript (Queue.produceInside_uncounted limit)
            producing (script : List (List (ProducerCall α)))
          have hconsumed := Queue.consume_uncounted hblind face call queue
          simp only [take, uncounted, consumerMeanwhile, if_true, hconsumed]
          rfl
  | setLimit bytes => rfl
  | dropProducer =>
      simp only [take, drop_uncounted]
      rfl
  | dropConsumer =>
      simp only [take, drop_uncounted]
      rfl
  | regrow capacity =>
      cases face with
      | bare =>
          simp only [take, uncounted, Queue.regrow_uncounted]
          split
          · rfl
          · rfl
      | fixed | growable => rfl
  | contend item max =>
      cases face with
      | growable shown =>
          simp only [take, uncounted, Queue.contend_uncounted]
          split
          · simp only [Queue.contend]
            split
            · rfl
            · rfl
          · rfl
      | bare | fixed => rfl

theorem step_uncounted (session : QueueSession α) (step : Step α) :
    session.uncounted.step step =
      Prod.map StepAnswer.uncounted uncounted (session.step step) := by
  unfold QueueSession.step
  simp only [take_uncounted, Prod.map, status_uncounted]
  rfl

theorem finish_uncounted (session : QueueSession α) :
    session.uncounted.finish = session.finish := by
  unfold finish
  simp only [drop_uncounted, Prod.map]
  rfl

omit [Item α] in
theorem breach_uncounted (session : QueueSession α) (step : Step α) :
    session.uncounted.breach step = session.breach step := by
  cases step <;> rfl

end QueueSession

namespace Session

def withoutCounts (transcript : List (StepAnswer α) × Ending α) :
    List (StepAnswer α) × Ending α :=
  (transcript.1.map StepAnswer.uncounted, transcript.2)

end Session

/-- The transcript of a queue without its counts is that of the queue, without the counts. -/
theorem QueueSession.transcript_uncounted [Item α] (session : QueueSession α)
    (steps : List (Step α)) :
    session.uncounted.transcript steps =
      (session.transcript steps).map Session.withoutCounts := by
  induction steps generalizing session with
  | nil =>
      unfold QueueSession.transcript
      rw [finish_uncounted]
      rfl
  | cons step rest ih =>
      unfold QueueSession.transcript
      rw [breach_uncounted]
      cases session.breach step with
      | some fault => rfl
      | none =>
          simp only [step_uncounted, Prod.map, ih]
          cases (session.step step).2.transcript rest with
          | error fault => rfl
          | ok others => rfl

namespace Session

variable [Item α]

theorem startTranscript_uncounted (kind : Kind) (limit capacity : Nat) (config : Config)
    (cursor : UInt64) (ordering : MemoryOrdering) (steps : List (Step α)) :
    startTranscript kind limit capacity ⟨false, ordering⟩ cursor steps =
      (startTranscript kind limit capacity config cursor steps).map
        (Except.map withoutCounts) := by
  have hnew : QueueSession.around kind (bound limit) capacity false =
      (QueueSession.around kind (bound limit) capacity config.metered :
        QueueSession α).uncounted := rfl
  rw [startTranscript_eq, startTranscript_eq]
  split
  · split
    · rw [hnew, QueueSession.transcript_uncounted]
      rfl
    · rfl
  · rfl

variable {kind : Kind} {limit capacity : Nat} {cursor : UInt64} {steps : List (Step α)}

/-- Without metrics all counts that are seen are zero, also those that the calls made inside calls
see. -/
theorem counters_of_plain {ordering : MemoryOrdering} {answers : List (StepAnswer α)}
    {ending : Ending α}
    (h : startTranscript kind limit capacity ⟨false, ordering⟩ cursor steps =
      .ok (.ok (answers, ending))) :
    ∀ sighting ∈ answers.flatMap StepAnswer.sightings, ∀ status ∈ sighting.seen,
      status.counters = .zero := by
  -- without metrics a transcript is its own erasure
  have herased := startTranscript_uncounted kind limit capacity ⟨false, ordering⟩ cursor ordering
    steps
  rw [h] at herased
  have hanswers : answers = answers.map StepAnswer.uncounted :=
    congrArg Prod.fst (Except.ok.inj (Except.ok.inj herased))
  intro sighting hsighting
  rw [hanswers] at hsighting
  rcases List.mem_flatMap.1 hsighting with ⟨answer, hanswer, hin⟩
  rcases List.mem_map.1 hanswer with ⟨counted, -, rfl⟩
  rw [StepAnswer.sightings_uncounted] at hin
  rcases List.mem_map.1 hin with ⟨seen, -, rfl⟩
  exact seen.counters_uncounted

/-- The configuration never shows but in the counts. These are zero without metrics, and with
metrics they are the same with and without fences: every access to a cursor takes the fence that
either ordering names for it. -/
theorem startTranscript_config (kind : Kind) (limit capacity : Nat) (cursor : UInt64)
    (steps : List (Step α)) :
    (∀ config config',
      (startTranscript kind limit capacity config cursor steps).map (Except.map withoutCounts) =
        (startTranscript kind limit capacity config' cursor steps).map
          (Except.map withoutCounts)) ∧
      (∀ ordering answers ending,
        startTranscript kind limit capacity ⟨false, ordering⟩ cursor steps =
            .ok (.ok (answers, ending)) →
          ∀ sighting ∈ answers.flatMap StepAnswer.sightings, ∀ status ∈ sighting.seen,
            status.counters = .zero) ∧
      ∀ metered ordering ordering',
        startTranscript kind limit capacity ⟨metered, ordering⟩ cursor steps =
          startTranscript kind limit capacity ⟨metered, ordering'⟩ cursor steps := by
  refine ⟨fun config config' => ?_, fun ordering answers ending hplain => counters_of_plain hplain,
    fun metered ordering ordering' => ?_⟩
  · rw [← startTranscript_uncounted kind limit capacity config cursor .relaxed,
      ← startTranscript_uncounted kind limit capacity config' cursor .relaxed]
  · rw [startTranscript_eq, startTranscript_eq]

/-- An item is inserted inside a drain that is broken off. There is no memory for a batch that needs
more room then, so it comes back. -/
theorem startTranscript_config_stuck :
    let steps : List (Step Tracked) :=
      [.produce (.writeBatch (.ofArray #[⟨1, false⟩, ⟨2, true⟩])) [],
        .consume (.drain 2 (some 1)) [[.insert ⟨3, false⟩, .observe]],
        .produce (.writeBatch (.ofArray #[⟨4, false⟩, ⟨5, false⟩, ⟨6, false⟩, ⟨7, false⟩])) []]
    ∃ answers ending,
      startTranscript .growable 64 4 ⟨false, .relaxed⟩ 0 steps = .ok (.ok (answers, ending)) ∧
        (answers.flatMap StepAnswer.sightings).length = 5 ∧
        (∀ sighting ∈ answers.flatMap StepAnswer.sightings, ∀ status ∈ sighting.seen,
          status.counters = .zero) ∧
        (startTranscript .growable 64 4 .counting 0 steps).map (Except.map withoutCounts) =
          .ok (.ok (withoutCounts (answers, ending))) := by
  intro steps
  have hlength : ((startTranscript .growable 64 4 ⟨false, .relaxed⟩ 0 steps).toOption.bind
      Except.toOption).map (fun transcript =>
        (transcript.1.flatMap StepAnswer.sightings).length) = some 5 := by
    decide +kernel
  rcases startTranscript_config .growable 64 4 0 steps with ⟨hsame, hzero, -⟩
  rcases htranscript : startTranscript .growable 64 4 ⟨false, .relaxed⟩ 0 steps with
    error | fault | ⟨answers, ending⟩
  · rw [htranscript] at hlength
    cases hlength
  · rw [htranscript] at hlength
    cases hlength
  · rw [htranscript] at hlength
    refine ⟨answers, ending, rfl, Option.some.inj hlength,
      hzero .relaxed answers ending htranscript, ?_⟩
    rw [hsame .counting ⟨false, .relaxed⟩, htranscript]
    rfl

end Session

end RingChannel
