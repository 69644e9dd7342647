import RingChannel.Proofs.FailedGrowth
import RingChannel.Proofs.Observers

/-!
# What is seen says how the next call goes

Nothing happens to a ring between two calls, and what is seen of it then is exact. So it decides
what the next call does: whether it finds an item, whether it is refused or has to grow the ring,
and whether it moves all that it was asked to.
-/

namespace RingChannel

variable {α : Type} [Item α]

namespace Queue

omit [Item α] in
theorem writeAll_done (items : Block α) (queue : Queue α) :
    (queue.writeAll items).1 = decide (items.size ≤ queue.free) := by
  unfold writeAll
  by_cases hshort : queue.free < items.size
  · rw [if_pos hshort, decide_eq_false (Nat.not_le.2 hshort)]
  · rw [if_neg hshort, decide_eq_true (Nat.not_lt.1 hshort)]

omit [Item α] in
theorem readExact_done (buffer : Block α) (queue : Queue α) :
    (queue.readExact buffer).1 = decide (buffer.size ≤ queue.items.length) := by
  unfold readExact
  by_cases hshort : queue.items.length < buffer.size
  · rw [if_pos hshort, decide_eq_false (Nat.not_le.2 hshort)]
  · rw [if_neg hshort, decide_eq_true (Nat.not_lt.1 hshort)]

theorem discardExact_outcome (queue : Queue α) (count : Nat) :
    (queue.discardExact count).1 =
      if queue.items.length < count then .returned false
      else if (queue.items.take count).any Item.explodes then .panicked .destructor
      else .returned true := by
  unfold discardExact
  by_cases hshort : queue.items.length < count
  · rw [if_pos hshort, if_pos hshort]
  · rw [if_neg hshort, if_neg hshort]
    rcases safe_or_explodes (queue.items.take count) with hsafe | ⟨item, hitem, hexplodes⟩
    · have hnone : (queue.items.take count).any Item.explodes = false :=
        List.any_eq_false.2 fun item hitem => Bool.eq_false_iff.1 (hsafe item hitem)
      rw [hnone, discard_of_safe hsafe]
      rfl
    · rw [if_pos (List.any_eq_true.2 ⟨item, hitem, hexplodes⟩)]
      exact congrArg (Outcome.map fun _ => true) (panicked_discard hitem hexplodes)

end Queue

theorem QueueSession.Growing.raises_iff {session : QueueSession α} (h : session.Growing)
    {call : ProducerCall α} {script : List (List (ConsumerCall α))} {reply : Reply α}
    {nested : List (Nat × List (Answer α))}
    (hreply : (session.step (.produce call script)).1.reply = .called reply nested)
    (hreserved : reply.reserved = true) :
    session.queue.capacity < (session.step (.produce call script)).2.queue.capacity ↔
      session.queue.free < call.needed := by
  have hlength := h.length_le
  unfold Queue.free
  rcases h.step_cases (.produce call script) with ⟨hkeeps, -⟩ | ⟨_, _, target, hstep, hraises, -, -⟩
  · -- what has its room in the capacity that stays had it before
    have hdemand : session.queue.items.length + call.needed ∈
        (Step.produce call script).demands session.queue.items.length session.queue.capacity
          (session.step (.produce call script)).1.reply := by
      rw [hreply]
      simp only [Step.demands, hreserved, if_true, List.mem_singleton]
    have henough := hkeeps.demands _ hdemand
    rw [hkeeps.steady.capacity_eq]
    omega
  · cases hstep
    have hshort := hraises.short
    have henough := hraises.least.le
    rw [hraises.steady.capacity_eq, Queue.capacity_record]
    simp only
    omega

namespace Session

/-- The call of a step comes back with this reply, and has run no code of its caller. -/
def Replies (session : Session α) (step : Step α) (reply : Reply α) : Prop :=
  ∃ answer next, session.step step = .ok (answer, next) ∧ answer.reply = .called reply []

/-- The next producer call goes as it was seen. On a ring that refuses, an insert is refused if the
ring was full, and a write of all if there was not room for all. On one that grows, a call that
needs more room than there was grows it or fails. -/
structure ForetellsWrites (session : Session α) (seen : Observation) : Prop where
  full_iff : seen.isFull = true ↔ seen.free < 1
  insert : session.channel.face.growing = false → ∀ item script,
    session.Replies (.produce (.insert item) script)
      (.inserted (if seen.isFull then some item else none))
  writeAll : session.channel.face.growing = false → ∀ items script,
    session.Replies (.produce (.writeAll items) script)
      (.wroteAll (decide (items.size ≤ seen.free)))
  reserve : session.channel.face.growing = true → ∀ call : ProducerCall α,
    call.reserves = true → ∀ script,
    ∃ answer next, session.step (.produce call script) = .ok (answer, next) ∧
      (session.channel.ring.capacity < next.channel.ring.capacity ∨ answer.reply.fails = true ↔
        seen.free < call.needed)

/-- The next consumer call goes as it was seen. A discard of as many items as there are comes to its
end unless one of them goes off. -/
structure ForetellsReads (session : Session α) (seen : Observation) : Prop where
  remove : ∀ script, ∃ item, session.Replies (.consume .remove script) (.removed item) ∧
    (seen.isEmpty = true ↔ item = none)
  readExact : ∀ buffer script, ∃ after, session.Replies (.consume (.readExact buffer) script)
    (.readExact (decide (buffer.size ≤ seen.readable)) after)
  discardExact : ∀ count script, session.Replies (.consume (.discardExact count) script)
    (.discardedExact
      (if seen.readable < count then .returned false
      else if (session.channel.ring.contents.take count).any Item.explodes then
        .panicked .destructor
      else .returned true))

namespace Holds

variable {session : Session α} {model : QueueSession α}

theorem replies_produce (h : session.Holds model) (hproducing : session.producing = true)
    (call : ProducerCall α) (script : List (List (ConsumerCall α))) {reply : Reply α}
    (hreply : (model.queue.produce model.limit (model.producerMeanwhile script) call
      model.face).1 = .plain reply) :
    session.Replies (.produce call script) reply := by
  have hadmits : session.Admits (.produce call script) := trivial
  rcases h.step hadmits with ⟨next, hstep, -⟩
  refine ⟨_, next, hstep, ?_⟩
  rw [QueueSession.reply_produce (h.producing_eq.symm.trans hproducing), hreply]
  rfl

theorem replies_consume (h : session.Holds model) (hconsuming : session.consuming = true)
    (call : ConsumerCall α) (script : List (List (ProducerCall α))) {reply : Reply α}
    {destroyed : List α}
    (hreply : (model.queue.consume model.face (model.consumerMeanwhile script) call).1 =
      ⟨reply, destroyed, [], []⟩) :
    session.Replies (.consume call script) reply := by
  have hadmits : session.Admits (.consume call script) := trivial
  rcases h.step hadmits with ⟨next, hstep, -⟩
  refine ⟨_, next, hstep, ?_⟩
  rw [QueueSession.reply_consume (h.consuming_eq.symm.trans hconsuming), hreply]

/-- A call on a ring that grows has to grow it, or fails, just when it needs more room than there
is. -/
theorem enlarges_iff (h : session.Holds model)
    (hface : model.face = .growable model.queue.capacity) (hproducing : session.producing = true)
    {call : ProducerCall α} (hcall : call.reserves = true)
    (script : List (List (ConsumerCall α))) :
    ∃ answer next, session.step (.produce call script) = .ok (answer, next) ∧
      (session.channel.ring.capacity < next.channel.ring.capacity ∨ answer.reply.fails = true ↔
        model.queue.free < call.needed) := by
  have hshown := h.face_eq.trans hface
  by_cases hfails : model.queue.capacity < model.queue.items.length + call.needed ∧
      Queue.Stuck α session.limit (model.queue.items.length + call.needed)
  · have hstep := h.step_stuck hshown hproducing hcall rfl hfails.1 hfails.2 script
    have hshort : model.queue.free < call.needed := by
      have hlength := h.ring.length_le
      unfold Queue.free
      omega
    refine ⟨_, session, hstep, ?_⟩
    rw [StepReply.fails_refusal hcall]
    exact iff_of_true (.inr rfl) hshort
  · have hadmits : session.Admits (.produce call script) := trivial
    rcases h.step hadmits with ⟨next, hstep, hnext⟩
    rcases h.step_reserved hshown hproducing hcall rfl hfails script with
      ⟨answer, next', reply, nested, hstep', hreply, hreserved, -⟩
    cases hstep.symm.trans hstep'
    refine ⟨_, next, hstep, ?_⟩
    rw [h.ring.capacity_eq, hnext.ring.capacity_eq, ← (h.growing hface).raises_iff hreply hreserved,
      hreply, StepReply.fails_of_reserved hreserved nested]
    simp only [Bool.false_eq_true, or_false]

/-- A ring that refuses is full, or it takes what fits. -/
theorem foretellsWrites (h : session.Holds model) (hface : model.face.Shows model.queue.capacity)
    (hproducing : session.producing = true) :
    session.ForetellsWrites (model.queue.look model.face).raw := by
  have hlength := h.ring.length_le
  have hfull : (model.queue.look model.face).raw.isFull = true ↔ model.queue.free = 0 := by
    simp only [Queue.look, Queue.observe, Queue.free, beq_iff_eq]
    omega
  have hbounded : session.channel.face.growing = false → ∀ meanwhile call,
      (model.queue.produce model.limit meanwhile call model.face).1 =
        (model.queue.writeBounded model.face meanwhile call).1 := by
    rw [h.face_eq]
    intro hgrowing meanwhile call
    cases hmodel : model.face with
    | bare | fixed => rfl
    | growable shown => cases hmodel ▸ hgrowing
  refine ⟨?_, fun hgrowing item script => ?_, fun hgrowing items script => ?_, ?_⟩
  · exact hfull.trans Nat.lt_one_iff.symm
  · apply h.replies_produce hproducing
    rw [hbounded hgrowing]
    simp only [Queue.writeBounded, Queue.push]
    by_cases hzero : model.queue.free = 0
    · rw [if_pos hzero, if_pos (hfull.2 hzero)]
    · rw [if_neg hzero, if_neg (mt hfull.1 hzero)]
  · apply h.replies_produce hproducing
    rw [hbounded hgrowing]
    simp only [Queue.writeBounded, Queue.writeAll_done]
    rfl
  · rw [h.face_eq]
    intro hgrowing call hcall script
    exact h.enlarges_iff (hface.eq_growable hgrowing) hproducing hcall script

theorem foretellsReads (h : session.Holds model) (hconsuming : session.consuming = true) :
    session.ForetellsReads (model.queue.look model.face).raw := by
  refine ⟨fun script => ?_, fun buffer script => ?_, fun count script => ?_⟩
  · refine ⟨model.queue.items.head?, h.replies_consume hconsuming .remove script rfl, ?_⟩
    simp only [Queue.look, Queue.observe, beq_iff_eq, List.length_eq_zero_iff,
      List.head?_eq_none_iff]
  · refine ⟨(model.queue.readExact buffer).2.1, ?_⟩
    apply h.replies_consume hconsuming (.readExact buffer) script
    simp only [Queue.consume, Queue.readExact_done]
    rfl
  · apply h.replies_consume hconsuming (.discardExact count) script
    simp only [Queue.consume, Queue.discardExact_outcome, h.ring.contents_eq]
    rfl

end Holds

/-- Wherever a ring can be looked at, both handles show it as it is: between calls, and whenever a
call runs code of its caller, before and after all that this code does. Between calls, what they
show says how the next call goes. -/
theorem observers_foretell {session : Session α} (h : session.Reachable) :
    (∃ look, Look.take session.channel.face session.channel.ring = .ok look ∧ look.Exact ∧
      look.raw.readable = (session.channel.ring.head - session.channel.ring.tail).toNat ∧
      (session.producing = true → session.ForetellsWrites look.raw) ∧
      (session.consuming = true → session.ForetellsReads look.raw)) ∧
    (∀ call script, ∃ performed channel, session.channel.produce session.limit
        (session.producerInterlude script).looking call = .ok (performed, channel) ∧
      Look.AllExact performed.nested) ∧
    ∀ call script, ∃ performed channel,
      session.channel.consume (session.consumerInterlude script).looking call =
        .ok (performed, channel) ∧
      Look.AllExact performed.nested := by
  rcases h.shows with ⟨model, hmodel, hface⟩
  have hlook := hmodel.ring.look session.channel.face
  rw [hmodel.face_eq] at hlook ⊢
  refine ⟨⟨_, hlook, Queue.look_exact hface hmodel.ring.length_le, hmodel.ring.live_eq.symm,
    hmodel.foretellsWrites hface, hmodel.foretellsReads⟩, hmodel.produce_looks hface,
    hmodel.consume_looks hface⟩

/-- A full ring of two slots whose cursors have wrapped, and a bomb in the first of them. One more
insert grows it or fails, two items can be read and three cannot, and a discard of one goes off. A
chunked write of two more grows it, and after either chunk its caller sees the grown ring. -/
theorem observers_foretell_full :
    let ring : RingBuffer Tracked :=
      ⟨18446744073709551615, 18446744073709551615, 1, .empty 2, .counting, .zero⟩
    let steps : List (Step Tracked) :=
      [.produce (.insert ⟨1, true⟩) [], .produce (.insert ⟨2, false⟩) []]
    let block : Nat → Block Tracked := fun size => .replicate size ⟨0, false⟩
    ∃ answers session look,
      (around .growable 64 ring).run steps = .ok (answers, session) ∧ session.Reachable ∧
        Look.take session.channel.face session.channel.ring = .ok look ∧ look.Exact ∧
        look.raw.isFull = true ∧ look.raw.readable = 2 ∧
        (∃ answer next, session.step (.produce (.insert ⟨3, false⟩) []) = .ok (answer, next) ∧
          (session.channel.ring.capacity < next.channel.ring.capacity ∨
            answer.reply.fails = true)) ∧
        (∃ after, session.Replies (.consume (.readExact (block 2)) []) (.readExact true after)) ∧
        (∃ after, session.Replies (.consume (.readExact (block 3)) []) (.readExact false after)) ∧
        session.Replies (.consume (.discardExact 1) [])
          (.discardedExact (.panicked .destructor)) ∧
        ∃ performed channel, session.channel.produce session.limit
            (session.producerInterlude [[.remove]]).looking (.writeChunked (block 2) 1 none) =
              .ok (performed, channel) ∧
          performed.nested.map Prod.fst = [0, 1] ∧ Look.AllExact performed.nested := by
  intro ring steps block
  have hring : RingBuffer.create 64 2 .counting 18446744073709551615 = .ok ring := rfl
  have hsteps : (around .growable 64 ring).AdmitsAll steps :=
    admitsAll_of_forall (by simp [steps, Admits]) _
  rcases (holds_around hring .growable 64).run hsteps with ⟨session, hrun, hsession⟩
  have hreachable : session.Reachable := (Reachable.around hring .growable 64).run hsteps hrun
  have hproducing : session.producing = true := hsession.producing_eq
  have hconsuming : session.consuming = true := hsession.consuming_eq
  have hface : session.channel.face = .growable 2 := hsession.face_eq
  have hcontents : session.channel.ring.contents = [⟨1, true⟩, ⟨2, false⟩] :=
    hsession.ring.contents_eq
  rcases observers_foretell hreachable with
    ⟨⟨look, htake, hexact, -, hwrites, hreads⟩, hinside, -⟩
  have hlook := hsession.ring.look session.channel.face
  cases hlook.symm.trans htake
  have hgrowing : session.channel.face.growing = true := by
    rw [hface]
    rfl
  have hdiscard := (hreads hconsuming).discardExact 1 []
  rw [hcontents] at hdiscard
  rcases (hwrites hproducing).reserve hgrowing (.insert ⟨3, false⟩) rfl [] with
    ⟨answer, next, hstep, hiff⟩
  rcases hinside (.writeChunked (block 2) 1 none) [[.remove]] with
    ⟨performed, channel, hproduce, hlooks⟩
  rcases hsession.produce (hsession.producerInterlude [[.remove]]).looking
    (Queue.free_consumeInside _ [[.remove]]) (.writeChunked (block 2) 1 none) with
    ⟨_, hqueue, -, -⟩
  cases hqueue.symm.trans hproduce
  exact ⟨_, session, _, hrun, hreachable, htake, hexact, rfl, rfl,
    ⟨answer, next, hstep, hiff.2 Nat.zero_lt_one⟩, (hreads hconsuming).readExact (block 2) [],
    (hreads hconsuming).readExact (block 3) [], hdiscard, _, channel, hproduce,
    by decide +kernel, hlooks⟩

/-- One item is there to be discarded, and a discard of exactly one goes off. -/
theorem discardExact_goes_off :
    let ring : RingBuffer Tracked := ⟨0, 0, 0, .empty 1, .counting, .zero⟩
    ∃ answers session seen answer next,
      (around .fixed 64 ring).run [.produce (.insert ⟨1, true⟩) []] = .ok (answers, session) ∧
        session.Reachable ∧ session.channel.observe .consumer = .ok seen ∧ seen.readable = 1 ∧
        session.step (.consume (.discardExact 1) []) = .ok (answer, next) ∧
        answer.reply = .called (.discardedExact (.panicked .destructor)) [] := by
  intro ring
  have hring : RingBuffer.create 64 1 .counting 0 = .ok ring := rfl
  have hsteps : (around .fixed 64 ring).AdmitsAll [.produce (.insert ⟨1, true⟩) []] :=
    admitsAll_of_forall (by simp [Admits]) _
  rcases (holds_around hring .fixed 64).run hsteps with ⟨session, hrun, hsession⟩
  have hreachable : session.Reachable := (Reachable.around hring .fixed 64).run hsteps hrun
  have hadmits : session.Admits (.consume (.discardExact 1) []) := trivial
  rcases hsession.step hadmits with ⟨next, hstep, -⟩
  have hobserve := hsession.ring.observe session.channel.face .consumer
  exact ⟨_, session, _, _, next, hrun, hreachable, hobserve, rfl, hstep, rfl⟩

end Session

end RingChannel
