import RingChannel.Proofs.Queue.Reserve
import RingChannel.Proofs.Reachable

/-!
# Failed growth

A call on a growable ring fails exactly when it needs more room than there is and that room cannot
be had. It then hands back what it was given and leaves everything as it was.
-/

namespace RingChannel

variable {α : Type} [Item α]

/-- A call came back with the error of a failed growth. -/
def StepReply.fails : StepReply α → Bool
  | .called (.insertedGrowing (.error _)) _ | .called (.wroteGrowing (.error _)) _ => true
  | .called (.wroteChunksGrowing (.returned (.error _)) _) _ => true
  | _ => false

omit [Item α] in
theorem StepReply.fails_refusal {call : ProducerCall α} (hcall : call.reserves = true)
    (error : RingError) (nested : List (Nat × List (Answer α))) :
    (StepReply.called (call.refusal error) nested).fails = true := by
  cases call with
  | insert | writeBatch | writeChunked => rfl
  | insertWith | insertWithBackoff | insertUntil | writeAll | observe => cases hcall

omit [Item α] in
theorem StepReply.fails_of_reserved {reply : Reply α} (h : reply.reserved = true)
    (nested : List (Nat × List (Answer α))) : (StepReply.called reply nested).fails = false := by
  cases hfails : (StepReply.called reply nested).fails with
  | false => rfl
  | true =>
      unfold fails at hfails
      split at hfails
      · rename_i hcalled
        cases hcalled
        cases h
      · rename_i hcalled
        cases hcalled
        cases h
      · rename_i hcalled
        cases hcalled
        cases h
      · cases hfails

/-! ## Nothing has changed -/

theorem RingBuffer.eq_of_regrow_error {limit capacity : Nat} {ring next : RingBuffer α}
    {error : RingError} (h : ring.regrow limit capacity = .ok (.error error, next)) :
    next = ring := by
  simp only [regrow, bind_eq_ok_iff] at h
  rcases h with ⟨_, -, h⟩
  split at h
  · cases h
    rfl
  · simp only [Cursor.load_relaxed, Cursor.store_relaxed, ok_bind, bind_eq_ok_iff] at h
    rcases h with ⟨_, -, _, -, h⟩
    cases h

namespace Growable

variable {limit needed : Nat} {growable : Growable α}

theorem eq_of_grow_error {written : Written α (Except RingError (Option Growth))}
    {error : RingError} (h : growable.grow limit needed = .ok written)
    (herror : written.result = .error error) : written.growable = growable := by
  simp only [grow, bind_eq_ok_iff] at h
  rcases h with ⟨free, -, h⟩
  split at h
  · cases h
    cases herror
  · simp only [bind_eq_ok_iff] at h
    rcases h with ⟨length, -, h⟩
    split at h
    · cases h
      rfl
    · simp only [bind_eq_ok_iff] at h
      rcases h with ⟨⟨result, grown⟩, hregrow, h⟩
      cases result with
      | error cause =>
          cases h
          rw [RingBuffer.eq_of_regrow_error hregrow]
      | ok _ =>
          cases h
          cases herror

theorem eq_of_reserve_error {written : Written α (Except RingError (Option Growth))}
    {error : RingError} (h : reserve limit needed (.now growable) = .ok written)
    (herror : written.result = .error error) : written.growable = growable := by
  simp only [reserve, Grant.now, bind_eq_ok_iff] at h
  rcases h with ⟨free, -, h⟩
  split at h
  · cases h
    cases herror
  · exact eq_of_grow_error h herror

end Growable

/-- Without room the call ends before it writes, or runs code of its caller. -/
theorem ProducerCall.onGrowable_of_error {limit : Nat} (interlude : Interlude α)
    {growable next : Growable α} {call : ProducerCall α} {error : RingError} {events : List Event}
    (hcall : call.reserves = true)
    (h : Growable.reserve limit call.needed (.now growable) = .ok ⟨.error error, events, next⟩) :
    call.onGrowable limit interlude growable =
      .ok (⟨call.refusal error, [], events, []⟩, next) := by
  cases call with
  | insert item =>
      simp only [needed] at h
      simp only [onGrowable, Growable.insert, h, ok_bind, refusal]
  | writeBatch items =>
      simp only [needed] at h
      simp only [onGrowable, Growable.writeBatch, h, ok_bind, refusal]
  | writeChunked items chunk panicAt =>
      simp only [needed] at h
      simp only [onGrowable, Growable.writeChunked, h, ok_bind, refusal]
      rfl
  | insertWith | insertWithBackoff | insertUntil | writeAll | observe => cases hcall

/-- Without its room and without a way to it a call gives everything back. -/
theorem RingBuffer.Holds.onGrowable_of_stuck {ring : RingBuffer α} {queue : Queue α}
    (h : ring.Holds 0 queue) {limit : Nat} (shown : Nat) (interlude : Interlude α)
    {call : ProducerCall α} (hcall : call.reserves = true) {total : Nat}
    (htotal : queue.items.length + call.needed = total) (hshort : queue.capacity < total)
    (hstuck : Queue.Stuck α limit total) :
    call.onGrowable limit interlude ⟨ring, shown⟩ =
      .ok (⟨call.refusal (queue.shortage total), [],
        [.growthFailed (queue.shortage total) call.needed], []⟩, ⟨ring, shown⟩) := by
  have hgrow := Queue.grow_of_stuck h.capacity_valid h.length_le htotal hshort hstuck
  rcases h.reserve limit call.needed shown (.inl rfl) with ⟨after, hreserve, -, -⟩
  -- the reservation fails on the ring as it does on the queue, and its ring is the old one
  have hsame : (⟨after, _⟩ : Growable α) = ⟨ring, shown⟩ :=
    Growable.eq_of_reserve_error hreserve (congrArg Prod.fst hgrow)
  rw [hsame, hgrow] at hreserve
  exact ProducerCall.onGrowable_of_error interlude hcall hreserve

namespace Session

theorem step_of_produce_unchanged {session : Session α} (hproducing : session.producing = true)
    {call : ProducerCall α} {script : List (List (ConsumerCall α))} {performed : Performed α}
    (hproduce : session.channel.produce session.limit (session.producerInterlude script) call =
      .ok (performed, session.channel)) {status : Option Status}
    (hstatus : session.status = .ok status) :
    session.step (.produce call script) =
      .ok (⟨.called performed.reply performed.nested, status, performed.destroyed,
        performed.events⟩, session) := by
  have htake : session.take (.produce call script) =
      .ok ⟨.called performed.reply performed.nested, performed.destroyed, performed.events,
        session⟩ := by
    unfold Session.take
    simp only
    rw [if_pos hproducing, hproduce]
    rfl
  unfold Session.step
  simp only [htake, hstatus, ok_bind]

namespace Holds

variable {session : Session α} {model : QueueSession α} {shown : Nat} {call : ProducerCall α}
  {total : Nat}

theorem step_stuck (h : session.Holds model) (hface : session.channel.face = .growable shown)
    (hproducing : session.producing = true) (hcall : call.reserves = true)
    (htotal : model.queue.items.length + call.needed = total)
    (hshort : model.queue.capacity < total) (hstuck : Queue.Stuck α session.limit total)
    (script : List (List (ConsumerCall α))) :
    session.step (.produce call script) =
      .ok (⟨.called (call.refusal (model.queue.shortage total)) [], model.status, [],
        [.growthFailed (model.queue.shortage total) call.needed]⟩, session) := by
  have hperformed := h.ring.onGrowable_of_stuck shown (session.producerInterlude script) hcall
    htotal hshort hstuck
  have hproduce : session.channel.produce session.limit (session.producerInterlude script) call =
      .ok (⟨call.refusal (model.queue.shortage total), [],
        [.growthFailed (model.queue.shortage total) call.needed], []⟩, session.channel) := by
    unfold Channel.produce
    simp only [hface, hperformed, ok_bind]
    rw [← hface]
  exact step_of_produce_unchanged hproducing hproduce h.status

/-- With the room or a way to it a call has its room. It comes back unless its caller breaks it
off. -/
theorem step_reserved (h : session.Holds model) (hface : session.channel.face = .growable shown)
    (hproducing : session.producing = true) (hcall : call.reserves = true)
    (htotal : model.queue.items.length + call.needed = total)
    (hgranted : ¬ (model.queue.capacity < total ∧ Queue.Stuck α session.limit total))
    (script : List (List (ConsumerCall α))) :
    ∃ answer next reply nested, session.step (.produce call script) = .ok (answer, next) ∧
      answer.reply = .called reply nested ∧ reply.reserved = true ∧
      (call.panicAt = none → reply.brokenOff = false) := by
  have hgrow : ∃ growth, (model.queue.grow session.limit call.needed).1 = .ok growth := by
    by_cases hshort : model.queue.capacity < total
    · have hfree : ¬ Queue.Stuck α session.limit total := fun hstuck => hgranted ⟨hshort, hstuck⟩
      rw [Queue.grow_of_not_stuck h.ring.capacity_valid h.ring.length_le htotal hshort hfree]
      exact ⟨_, rfl⟩
    · rw [Queue.grow_of_room session.limit (by omega)]
      exact ⟨none, rfl⟩
  rcases hgrow with ⟨growth, hgrow⟩
  rw [h.limit_eq] at hgrow
  let meanwhile := model.producerMeanwhile script
  let performed := (model.queue.writeUnbounded model.limit meanwhile shown call).1
  have hreserved : performed.reply.reserved = true :=
    (Queue.writeUnbounded_of_ok shown meanwhile hcall hgrow).1
  have hback : call.panicAt = none → performed.reply.brokenOff = false :=
    Queue.brokenOff_writeUnbounded shown meanwhile model.limit model.queue
  have hmodelface : model.face = .growable shown := h.face_eq.symm.trans hface
  have hreply : (model.step (.produce call script)).1.reply =
      .called performed.reply performed.nested := by
    rw [QueueSession.reply_produce (h.producing_eq.symm.trans hproducing)]
    simp only [Queue.produce, hmodelface, performed, meanwhile]
  have hadmits : session.Admits (.produce call script) := trivial
  rcases h.step hadmits with ⟨next, hstep, -⟩
  exact ⟨_, next, _, _, hstep, hreply, hreserved, hback⟩

theorem step_granted (h : session.Holds model) (hface : session.channel.face = .growable shown)
    (hproducing : session.producing = true) (hcall : call.reserves = true)
    (htotal : model.queue.items.length + call.needed = total)
    (hgranted : ¬ (model.queue.capacity < total ∧ Queue.Stuck α session.limit total))
    (script : List (List (ConsumerCall α))) :
    ∃ answer next, session.step (.produce call script) = .ok (answer, next) ∧
      answer.reply.fails = false := by
  rcases h.step_reserved hface hproducing hcall htotal hgranted script with
    ⟨answer, next, reply, nested, hstep, hreply, hreserved, -⟩
  refine ⟨answer, next, hstep, ?_⟩
  rw [hreply]
  exact StepReply.fails_of_reserved hreserved nested

end Holds

/-- A producer call of a growable ring that writes fails if and only if the room that it needs in
all is more than there is, and the least power of two that is enough is no word or takes more memory
than there is. A call that fails gives everything back and runs no code of its caller, reports the
failure once, and leaves the session as it was. -/
theorem step_fails_iff {session : Session α} (h : session.Reachable) {shown : Nat}
    (hface : session.channel.face = .growable shown) (hproducing : session.producing = true)
    (call : ProducerCall α) (hcall : call.reserves = true)
    (script : List (List (ConsumerCall α))) :
    ∃ target answer next,
      Capacity.LeastPower (session.channel.ring.length + call.needed) target ∧
      session.step (.produce call script) = .ok (answer, next) ∧
      (answer.reply.fails = true ↔
        session.channel.ring.capacity < session.channel.ring.length + call.needed ∧
          (1 <<< 63 < session.channel.ring.length + call.needed ∨
            session.limit < target * Item.slotBytes α)) ∧
      (answer.reply.fails = true →
        let error := .growthFailed session.channel.ring.capacity
          (if 1 <<< 63 < session.channel.ring.length + call.needed then Capacity.wordMax
            else target)
        answer.reply = .called (call.refusal error) [] ∧ answer.destroyed = [] ∧
          answer.events = [.growthFailed error call.needed] ∧
          answer.events.map Event.level = [.warn] ∧ next = session) := by
  rcases h.holds with ⟨model, hmodel⟩
  refine ⟨Capacity.roundUp (session.channel.ring.length + call.needed), ?_⟩
  rw [hmodel.ring.capacity_eq, hmodel.ring.length_eq]
  generalize htotal : model.queue.items.length + call.needed = total
  by_cases hfails : model.queue.capacity < total ∧ Queue.Stuck α session.limit total
  · have hstep := hmodel.step_stuck hface hproducing hcall htotal hfails.1 hfails.2 script
    refine ⟨_, session, Capacity.leastPower_roundUp total, hstep, ?_, ?_⟩
    · simp only [StepReply.fails_refusal hcall, true_iff]
      exact hfails
    · intro _
      exact ⟨rfl, rfl, rfl, rfl, rfl⟩
  · rcases hmodel.step_granted hface hproducing hcall htotal hfails script with
      ⟨answer, next, hstep, hanswer⟩
    refine ⟨answer, next, Capacity.leastPower_roundUp total, hstep, ?_, ?_⟩
    · simp only [hanswer, Bool.false_eq_true, false_iff]
      exact hfails
    · intro hfailed
      rw [hanswer] at hfailed
      cases hfailed

/-- A full ring of two slots and memory for two. One more item would take four slots; a batch as
long as a word allows would take more than a word. -/
theorem step_fails_full :
    let ring : RingBuffer Tracked := ⟨0, 0, 1, .empty 2, .counting, .zero⟩
    let steps : List (Step Tracked) :=
      [.produce (.insert ⟨1, true⟩) [], .produce (.insert ⟨2, false⟩) [], .setLimit 32]
    let many : Block Tracked := .replicate 18446744073709551615 ⟨0, false⟩
    ∃ answers session answer overflow,
      (around .growable 64 ring).run steps = .ok (answers, session) ∧ session.Reachable ∧
        session.channel.face = .growable 2 ∧ session.producing = true ∧
        session.step (.produce (.insert ⟨3, true⟩) []) = .ok (answer, session) ∧
        answer.reply = .called (.insertedGrowing (.error ⟨⟨3, true⟩, .growthFailed 2 4⟩)) [] ∧
        answer.events = [.growthFailed (.growthFailed 2 4) 1] ∧
        session.step (.produce (.writeBatch many) []) = .ok (overflow, session) ∧
        overflow.reply =
          .called (.wroteGrowing (.error (.growthFailed 2 18446744073709551615))) [] := by
  intro ring steps many
  have hring : RingBuffer.create 64 2 .counting 0 = .ok ring := rfl
  have hsteps : (around .growable 64 ring).AdmitsAll steps :=
    admitsAll_of_forall (by simp [steps, Admits]) _
  rcases (holds_around hring .growable 64).run hsteps with ⟨session, hrun, hsession⟩
  have hreachable : session.Reachable := (Reachable.around hring .growable 64).run hsteps hrun
  have hface : session.channel.face = .growable 2 := hsession.face_eq
  have hproducing : session.producing = true := hsession.producing_eq
  have hcapacity : session.channel.ring.capacity = 2 := hsession.ring.capacity_eq
  have hlength : session.channel.ring.length = 2 := hsession.ring.length_eq
  have hlimit : session.limit = 32 := hsession.limit_eq
  rcases step_fails_iff hreachable hface hproducing (.insert ⟨3, true⟩) rfl [] with
    ⟨target, answer, next, htarget, hstep, hiff, hfailed⟩
  rw [hlength] at htarget
  cases htarget.eq_roundUp
  rw [hcapacity, hlength, hlimit] at hiff
  have hfails : answer.reply.fails = true := hiff.2 (by decide)
  rw [hcapacity, hlength] at hfailed
  rcases hfailed hfails with ⟨hreply, -, hevents, -, hsame⟩
  cases hsame
  rcases step_fails_iff hreachable hface hproducing (.writeBatch many) rfl [] with
    ⟨_, overflow, later, -, hoverflow, hiff', hfailed'⟩
  rw [hcapacity, hlength] at hiff' hfailed'
  have hlong : 2 < 2 + many.size ∧ 1 <<< 63 < 2 + many.size := by decide
  rcases hfailed' (hiff'.2 ⟨hlong.1, .inl hlong.2⟩) with ⟨hreply', -, -, -, hsame⟩
  cases hsame
  exact ⟨_, session, answer, overflow, hrun, hreachable, hface, hproducing, hstep,
    hreply, hevents, hoverflow, hreply'⟩

end Session

end RingChannel
