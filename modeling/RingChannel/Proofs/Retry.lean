import RingChannel.Proofs.FailedGrowth
import RingChannel.Proofs.Queue.Calm

/-!
# Trying again

A call on a growable ring that fails can be made again once the consumer has made room and more
memory is granted. Neither helps without end: the consumer takes out what is unread and nothing
else, and no store takes more bytes than one object can have. So what a call brings, with the items
that nobody can take out any more, decides whether trying again can help.
-/

namespace RingChannel

variable {α : Type} [Item α]

theorem Queue.Stuck.mono {limit limit' total total' : Nat} (h : Stuck α limit total)
    (hlimit : limit' ≤ limit) (htotal : total ≤ total') : Stuck α limit' total' := by
  rcases h with hword | hmemory
  · exact .inl (Nat.lt_of_lt_of_le hword htotal)
  · have hbytes : Capacity.roundUp total * Item.slotBytes α ≤
        Capacity.roundUp total' * Item.slotBytes α :=
      Nat.mul_le_mul_right _ (Capacity.roundUp_mono htotal)
    exact .inr (by omega)

/-! ## What consumer calls can change -/

namespace QueueSession

/-- What consumer calls leave as it is, whatever their caller does meanwhile. Without a consumer
they leave the items as well. -/
structure Stays (session next : QueueSession α) : Prop where
  face_eq : next.face = session.face
  capacity_eq : next.queue.capacity = session.queue.capacity
  limit_eq : next.limit = session.limit
  producing_eq : next.producing = session.producing
  consuming_eq : next.consuming = session.consuming
  items_eq : session.consuming = false → next.queue.items = session.queue.items

variable {session mid next : QueueSession α}

omit [Item α] in
theorem Stays.refl (session : QueueSession α) : session.Stays session :=
  ⟨rfl, rfl, rfl, rfl, rfl, fun _ => rfl⟩

omit [Item α] in
theorem Stays.trans (h : session.Stays mid) (h' : mid.Stays next) : session.Stays next where
  face_eq := h'.face_eq.trans h.face_eq
  capacity_eq := h'.capacity_eq.trans h.capacity_eq
  limit_eq := h'.limit_eq.trans h.limit_eq
  producing_eq := h'.producing_eq.trans h.producing_eq
  consuming_eq := h'.consuming_eq.trans h.consuming_eq
  items_eq hconsuming :=
    (h'.items_eq (h.consuming_eq.trans hconsuming)).trans (h.items_eq hconsuming)

theorem stays_consume (session : QueueSession α) (call : ConsumerCall α)
    (script : List (List (ProducerCall α))) :
    session.Stays (session.step (.consume call script)).2 := by
  cases hconsuming : session.consuming with
  | false =>
      simp only [step, take, hconsuming, Bool.false_eq_true, if_false]
      exact .refl session
  | true =>
      have hsteady := Queue.chains_steady.consume
        (Queue.chains_steady.ofScript
          (Queue.chains_steady.produceInside Queue.steady_write session.limit) session.producing
          script)
        Queue.steady_behead session.face session.queue call
      simp only [step, take, hconsuming, if_true]
      refine ⟨rfl, hsteady.capacity_eq, rfl, rfl, hconsuming.symm, ?_⟩
      intro habsent
      rw [hconsuming] at habsent
      cases habsent

end QueueSession

def consumption (calls : List (ConsumerCall α × List (List (ProducerCall α)))) : List (Step α) :=
  calls.map fun made => .consume made.1 made.2

theorem QueueSession.stays_consumption (session : QueueSession α)
    (calls : List (ConsumerCall α × List (List (ProducerCall α)))) :
    session.Stays (session.run (consumption calls)).2 := by
  induction calls generalizing session with
  | nil => exact .refl session
  | cons made rest ih => exact (session.stays_consume made.1 made.2).trans (ih _)

/-- A consumer, if there is one, can take out all that is unread. -/
theorem QueueSession.exists_emptying (session : QueueSession α) :
    ∃ calls, (session.run (consumption calls)).2.queue.items.length =
      if session.consuming then 0 else session.queue.items.length := by
  cases hconsuming : session.consuming with
  | false => exact ⟨[], rfl⟩
  | true =>
      have hquiet : session.consumerMeanwhile [] = .quiet := rfl
      refine ⟨[(.drain session.queue.items.length none, [])], ?_⟩
      simp only [consumption, List.map_cons, List.map_nil, run, step, take, hconsuming, if_true,
        hquiet, Queue.consume, Queue.Meanwhile.quiet_callback, Queue.drain_listening,
        Queue.items_remove, List.drop_length, List.length_nil]

namespace Session

/-! ## Making the call again -/

/-- The unread items that nobody can take out any more. -/
def kept (session : Session α) : Nat :=
  if session.consuming then 0 else session.channel.ring.length

/-- With the memory and after the consumer calls that suit it best, the call has its room. It comes
back with its growth then, unless its caller breaks it off. -/
def Retries (session : Session α) (call : ProducerCall α)
    (script : List (List (ConsumerCall α))) : Prop :=
  ∃ bytes calls answers later answer last reply nested,
    session.run (.setLimit bytes :: consumption calls) = .ok (answers, later) ∧
    later.step (.produce call script) = .ok (answer, last) ∧
    answer.reply = .called reply nested ∧ reply.reserved = true ∧
    (call.panicAt = none → reply.growth.isSome = true)

theorem admitsAll_wait (session : Session α) (bytes : Nat)
    (calls : List (ConsumerCall α × List (List (ProducerCall α)))) :
    session.AdmitsAll (.setLimit bytes :: consumption calls) := by
  apply admitsAll_of_forall
  intro step hstep other
  rcases List.mem_cons.1 hstep with rfl | hstep
  · exact trivial
  · rcases List.mem_map.1 hstep with ⟨made, -, rfl⟩
    exact trivial

/-- What is certain of a session after a wait for the consumer, with other memory. -/
structure Waited (session : Session α) (bytes : Nat) (later : Session α) : Prop where
  face_eq : later.channel.face = session.channel.face
  producing_eq : later.producing = session.producing
  limit_eq : later.limit = bound bytes
  capacity_eq : later.channel.ring.capacity = session.channel.ring.capacity
  kept_le : session.kept ≤ later.channel.ring.length

namespace Holds

variable {session : Session α} {model : QueueSession α}

omit [Item α] in
theorem kept_eq (h : session.Holds model) :
    session.kept = if model.consuming then 0 else model.queue.items.length := by
  rw [kept, h.consuming_eq, h.ring.length_eq]

theorem wait (h : session.Holds model) (bytes : Nat)
    (calls : List (ConsumerCall α × List (List (ProducerCall α)))) :
    ∃ answers later, session.run (.setLimit bytes :: consumption calls) = .ok (answers, later) ∧
      later.Holds (QueueSession.run { model with limit := bound bytes } (consumption calls)).2 ∧
      session.Waited bytes later := by
  rcases h.run (session.admitsAll_wait bytes calls) with ⟨later, hrun, hlater⟩
  refine ⟨_, later, hrun, hlater, ?_⟩
  let granted : QueueSession α := { model with limit := bound bytes }
  have hstays := granted.stays_consumption calls
  refine ⟨?_, ?_, hlater.limit_eq.trans hstays.limit_eq, ?_, ?_⟩
  · rw [hlater.face_eq, h.face_eq]
    exact hstays.face_eq
  · rw [hlater.producing_eq, h.producing_eq]
    exact hstays.producing_eq
  · rw [hlater.ring.capacity_eq, h.ring.capacity_eq]
    exact hstays.capacity_eq
  · rw [h.kept_eq, hlater.ring.length_eq]
    split
    · exact Nat.zero_le _
    · rename_i habsent
      exact Nat.le_of_eq (congrArg List.length (hstays.items_eq (Bool.eq_false_iff.2 habsent))).symm

variable {shown : Nat} {call : ProducerCall α}

/-- No wait helps a call that brings too much. -/
theorem not_retries (h : session.Holds model) (hface : session.channel.face = .growable shown)
    (hproducing : session.producing = true) (hcall : call.reserves = true)
    (hshort : session.channel.ring.capacity < session.kept + call.needed)
    (hstuck : Queue.Stuck α Capacity.byteMax (session.kept + call.needed))
    (script : List (List (ConsumerCall α))) : ¬ session.Retries call script := by
  rintro ⟨bytes, calls, answers, later, answer, last, reply, nested, hrun, hstep, hreply,
    hreserved, -⟩
  rcases h.wait bytes calls with ⟨answers', later', hrun', hlater, hwaited⟩
  rw [hrun'] at hrun
  cases hrun
  have hcapacity := hwaited.capacity_eq
  have hkept := hwaited.kept_le
  rw [hlater.ring.capacity_eq] at hcapacity
  rw [hlater.ring.length_eq] at hkept
  have hlimit : later.limit ≤ Capacity.byteMax := by
    rw [hwaited.limit_eq]
    exact Nat.min_le_right _ _
  have hagain := hlater.step_stuck (hwaited.face_eq.trans hface)
    (hwaited.producing_eq.trans hproducing) hcall rfl (by omega)
    (hstuck.mono hlimit (Nat.add_le_add_right hkept _)) script
  rw [hagain] at hstep
  cases hstep
  cases hreply
  rw [Reply.reserved_refusal] at hreserved
  cases hreserved

/-- A call that brings no more than can be had waits until all is taken out, and for all memory. -/
theorem retries (h : session.Holds model) (hface : session.channel.face = .growable shown)
    (hproducing : session.producing = true) (hcall : call.reserves = true)
    (hgranted : ¬ (session.channel.ring.capacity < session.kept + call.needed ∧
      Queue.Stuck α Capacity.byteMax (session.kept + call.needed)))
    (script : List (List (ConsumerCall α))) : session.Retries call script := by
  let granted : QueueSession α := { model with limit := bound Capacity.byteMax }
  rcases granted.exists_emptying with ⟨calls, hempty⟩
  rcases h.wait Capacity.byteMax calls with ⟨answers, later, hrun, hlater, hwaited⟩
  have hkept : (granted.run (consumption calls)).2.queue.items.length = session.kept := by
    rw [h.kept_eq]
    exact hempty
  have hlimit : later.limit = Capacity.byteMax := hwaited.limit_eq.trans (Nat.min_self _)
  have hroomy : ¬ ((granted.run (consumption calls)).2.queue.capacity <
      session.kept + call.needed ∧ Queue.Stuck α later.limit (session.kept + call.needed)) := by
    rw [hlimit, ← hlater.ring.capacity_eq, hwaited.capacity_eq]
    exact hgranted
  rcases hlater.step_reserved (hwaited.face_eq.trans hface)
    (hwaited.producing_eq.trans hproducing) hcall (congrArg (· + call.needed) hkept) hroomy
    script with ⟨answer, last, reply, nested, hstep, hreply, hreserved, hback⟩
  refine ⟨_, calls, answers, later, answer, last, reply, nested, hrun, hstep, hreply, hreserved, ?_⟩
  intro hpanic
  rw [Reply.reserved, hback hpanic, Bool.or_false] at hreserved
  exact hreserved

theorem step_fails_recoverable (h : session.Holds model)
    (hface : session.channel.face = .growable shown) (hproducing : session.producing = true)
    (hcall : call.reserves = true) (script : List (List (ConsumerCall α))) :
    ∃ answer next, session.step (.produce call script) = .ok (answer, next) ∧
      (answer.reply.fails = true →
        (∃ error, answer.reply = .called (call.refusal error) [] ∧ error.isRecoverable = true) ∧
          next = session) := by
  by_cases hfails : model.queue.capacity < model.queue.items.length + call.needed ∧
      Queue.Stuck α session.limit (model.queue.items.length + call.needed)
  · have hstep := h.step_stuck hface hproducing hcall rfl hfails.1 hfails.2 script
    exact ⟨_, session, hstep, fun _ => ⟨⟨_, rfl, rfl⟩, rfl⟩⟩
  · rcases h.step_granted hface hproducing hcall rfl hfails script with
      ⟨answer, next, hstep, hgranted⟩
    refine ⟨answer, next, hstep, fun hfailed => ?_⟩
    rw [hgranted] at hfailed
    cases hfailed

end Holds

/-- A call that fails on a growable ring reports an error that calls itself recoverable, and changes
nothing. Made again, it can have its room if and only if what it brings fits beside the items that
nobody can take out any more: in the present store, or in one of the least power of two that is
enough, if that is a word and one object can have its bytes. -/
theorem retry_succeeds_iff {session : Session α} (h : session.Reachable) {shown : Nat}
    (hface : session.channel.face = .growable shown) (hproducing : session.producing = true)
    (call : ProducerCall α) (hcall : call.reserves = true)
    (script : List (List (ConsumerCall α))) :
    (∃ answer next, session.step (.produce call script) = .ok (answer, next) ∧
      (answer.reply.fails = true →
        (∃ error, answer.reply = .called (call.refusal error) [] ∧ error.isRecoverable = true) ∧
          next = session)) ∧
    ∃ target, Capacity.LeastPower (session.kept + call.needed) target ∧
      (session.Retries call script ↔
        session.kept + call.needed ≤ session.channel.ring.capacity ∨
          session.kept + call.needed ≤ 1 <<< 63 ∧
            target * Item.slotBytes α ≤ Capacity.byteMax) := by
  rcases h.holds with ⟨model, hmodel⟩
  refine ⟨hmodel.step_fails_recoverable hface hproducing hcall script,
    Capacity.roundUp (session.kept + call.needed), Capacity.leastPower_roundUp _, ?_, ?_⟩
  · intro hretries
    by_cases hshort : session.channel.ring.capacity < session.kept + call.needed
    · right
      have hfree : ¬ Queue.Stuck α Capacity.byteMax (session.kept + call.needed) := fun hstuck =>
        hmodel.not_retries hface hproducing hcall hshort hstuck script hretries
      rw [Queue.Stuck, not_or, Nat.not_lt, Nat.not_lt] at hfree
      exact hfree
    · exact .inl (Nat.not_lt.1 hshort)
  · intro henough
    apply hmodel.retries hface hproducing hcall
    rintro ⟨hshort, hword | hmemory⟩ <;> omega

/-- A full ring of two slots, the first of them with a bomb, and memory for two. An insert fails,
and can be made again; a batch that is too long for a word cannot, even on an empty ring. -/
theorem retry_succeeds_full :
    let ring : RingBuffer Tracked := ⟨0, 0, 1, .empty 2, .counting, .zero⟩
    let steps : List (Step Tracked) :=
      [.produce (.insert ⟨1, true⟩) [], .produce (.insert ⟨2, false⟩) [], .setLimit 32]
    let many : Block Tracked := .replicate 18446744073709551615 ⟨0, false⟩
    ∃ answers session answer,
      (around .growable 64 ring).run steps = .ok (answers, session) ∧ session.Reachable ∧
        session.channel.face = .growable 2 ∧ session.producing = true ∧
        session.step (.produce (.insert ⟨3, true⟩) []) = .ok (answer, session) ∧
        answer.reply.fails = true ∧ session.Retries (.insert ⟨3, true⟩) [] ∧
        ¬ session.Retries (.writeBatch many) [] := by
  intro ring steps many
  have hring : RingBuffer.create 64 2 .counting 0 = .ok ring := rfl
  have hsteps : (around .growable 64 ring).AdmitsAll steps :=
    admitsAll_of_forall (by simp [steps, Admits]) _
  rcases (holds_around hring .growable 64).run hsteps with ⟨session, hrun, hsession⟩
  have hreachable : session.Reachable := (Reachable.around hring .growable 64).run hsteps hrun
  have hface : session.channel.face = .growable 2 := hsession.face_eq
  have hproducing : session.producing = true := hsession.producing_eq
  have hcapacity : session.channel.ring.capacity = 2 := hsession.ring.capacity_eq
  have hkept : session.kept = 0 := hsession.kept_eq
  have hlimit : session.limit = 32 := hsession.limit_eq
  have hstuck : Queue.Stuck Tracked session.limit 3 := by
    rw [hlimit]
    exact .inr (by decide)
  have hcall : (ProducerCall.insert (⟨3, true⟩ : Tracked)).reserves = true := rfl
  have htotal : _ + (ProducerCall.insert (⟨3, true⟩ : Tracked)).needed = 3 := rfl
  have hstep := hsession.step_stuck hface hproducing hcall htotal (by decide) hstuck []
  rcases (retry_succeeds_iff hreachable hface hproducing (.insert ⟨3, true⟩) rfl []).2 with
    ⟨_, -, hinsert⟩
  rcases (retry_succeeds_iff hreachable hface hproducing (.writeBatch many) rfl []).2 with
    ⟨_, -, hbatch⟩
  rw [hcapacity, hkept] at hinsert hbatch
  refine ⟨_, session, _, hrun, hreachable, hface, hproducing, hstep, rfl, hinsert.2 ?_, ?_⟩
  · exact .inl (by decide)
  · intro hretries
    have hlong : ¬ 0 + many.size ≤ 2 ∧ ¬ 0 + many.size ≤ 1 <<< 63 := by decide
    rcases hbatch.1 hretries with hfits | hword
    · exact hlong.1 hfits
    · exact hlong.2 hword.1

/-- A batch of units, one longer than the largest capacity: its error calls itself recoverable, and
no wait for the consumer and no memory lets it through. -/
theorem recoverable_without_retry :
    let ring : RingBuffer Unit := ⟨0, 0, 0, .empty 1, .plain, .zero⟩
    let many : Block Unit := .replicate 9223372036854775809 ()
    let session := around .growable defaultLimit ring
    session.Reachable ∧
      (∃ answer, session.step (.produce (.writeBatch many) []) = .ok (answer, session) ∧
        answer.reply =
          .called (.wroteGrowing (.error (.growthFailed 1 Capacity.wordMax))) []) ∧
      (RingError.growthFailed 1 Capacity.wordMax).isRecoverable = true ∧
      ¬ session.Retries (.writeBatch many) [] := by
  intro ring many session
  have hring : RingBuffer.create defaultLimit 1 .plain 0 = .ok ring := rfl
  have hsession : session.Holds _ := holds_around hring .growable defaultLimit
  have hkept : session.kept = 0 := hsession.kept_eq
  have hface : session.channel.face = .growable 1 := rfl
  have hlong : 1 < 0 + many.size ∧ 1 <<< 63 < 0 + many.size := by decide
  have hcall : (ProducerCall.writeBatch many).reserves = true := rfl
  have hstep := hsession.step_stuck hface rfl hcall rfl hlong.1 (.inl hlong.2) []
  refine ⟨.around hring .growable defaultLimit, ⟨_, hstep, rfl⟩, rfl, ?_⟩
  apply hsession.not_retries hface rfl hcall
  · rw [hkept]
    exact hlong.1
  · rw [hkept]
    exact .inl hlong.2

end Session

end RingChannel
