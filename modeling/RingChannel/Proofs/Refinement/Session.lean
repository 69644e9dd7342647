import RingChannel.Proofs.Queue.Effects
import RingChannel.Proofs.Refinement.Calls
import RingChannel.Proofs.Refinement.Contention

/-!
# Sessions on a ring are sessions on its queue

Every step of a session answers as the step on the queue does, and so does every run. The one thing
that a session relies on is its caller's part in regrowing a bare ring: the new capacity is a valid
one and larger than the present one.
-/

namespace RingChannel

variable {α : Type}

namespace Session

def around (kind : Kind) (limit : Nat) (ring : RingBuffer α) : Session α :=
  ⟨.ofRing ring kind, limit, true, true⟩

/-- The caller keeps its part of the contract in a step. -/
def Admits (session : Session α) : Step α → Prop
  | .regrow capacity =>
      session.channel.face = .bare →
        Capacity.isValid capacity = true ∧ session.channel.ring.capacity < capacity
  | .produce _ _ | .consume _ _ | .setLimit _ | .dropProducer | .dropConsumer | .contend _ _ => True

def AdmitsAll [Item α] (session : Session α) : List (Step α) → Prop
  | [] => True
  | step :: rest =>
      session.Admits step ∧
        ∀ answer next, session.step step = .ok (answer, next) → next.AdmitsAll rest

structure Holds (session : Session α) (model : QueueSession α) : Prop where
  face_eq : session.channel.face = model.face
  ring : session.channel.ring.Holds 0 model.queue
  limit_eq : session.limit = model.limit
  producing_eq : session.producing = model.producing
  consuming_eq : session.consuming = model.consuming

end Session

def Kind.face (capacity : Nat) : Kind → Face
  | .bare => .bare
  | .fixed => .fixed
  | .growable => .growable capacity

def QueueSession.around (kind : Kind) (limit capacity : Nat) (metered : Bool) : QueueSession α :=
  ⟨kind.face capacity, .empty capacity metered, limit, true, true⟩

namespace Session

variable [Item α]

theorem admitsAll_of_forall {steps : List (Step α)}
    (h : ∀ step ∈ steps, ∀ session : Session α, session.Admits step) (session : Session α) :
    session.AdmitsAll steps := by
  induction steps generalizing session with
  | nil => exact trivial
  | cons step rest ih =>
      refine ⟨h step List.mem_cons_self session, fun _ next _ => ?_⟩
      exact ih (fun other hother => h other (List.mem_cons_of_mem step hother)) next

/-- A session around a new ring, wherever its cursors start. -/
theorem holds_around {limit capacity : Nat} {config : Config} {cursor : UInt64}
    {ring : RingBuffer α} (h : RingBuffer.create limit capacity config cursor = .ok ring)
    (kind : Kind) (bytes : Nat) :
    (around kind bytes ring).Holds (.around kind bytes capacity config.metered) := by
  have hring := RingBuffer.holds_of_create h
  have hcapacity : ring.capacity = capacity := hring.capacity_eq
  refine ⟨?_, ?_, rfl, rfl, rfl⟩
  · cases kind with
    | bare | fixed => rfl
    | growable => exact congrArg Face.growable hcapacity
  · cases kind <;> exact hring

theorem start_eq_around {kind : Kind} {limit capacity : Nat} {config : Config} {cursor : UInt64}
    {session : Session α} (h : start kind limit capacity config cursor = .ok session) :
    ∃ ring start, RingBuffer.create (bound limit) capacity config start = .ok ring ∧
      session = around kind (bound limit) ring := by
  unfold start Channel.create at h
  cases hcreate : (RingBuffer.create (bound limit) capacity config
      (if kind = .bare then cursor else 0) : Except RingError (RingBuffer α)) with
  | error error =>
      rw [hcreate] at h
      cases h
  | ok ring =>
      rw [hcreate] at h
      cases h
      exact ⟨ring, _, hcreate, rfl⟩

namespace Holds

variable {session : Session α} {model : QueueSession α}

omit [Item α] in
theorem status (h : session.Holds model) : session.status = .ok model.status := by
  unfold Session.status QueueSession.status
  rw [h.producing_eq, h.consuming_eq]
  cases model.producing || model.consuming with
  | false => rfl
  | true => simp only [if_true, Channel.observe, h.face_eq, h.ring.observe, ok_bind]

/-- What the producer's caller does by its script only makes room. -/
theorem producerInterlude (h : session.Holds model) (script : List (List (ConsumerCall α))) :
    Follows (fun ring => (ring.head, ())) 0 (session.producerInterlude script)
      (model.producerMeanwhile script) := by
  unfold Session.producerInterlude QueueSession.producerMeanwhile
  rw [h.consuming_eq]
  refine Follows.ofScript (fun face call queue ring hring => ?_) _ script
  obtain ⟨next, hrun, hnext, hhead⟩ := hring.consumeInside face call
  exact ⟨next, hrun, hnext, by rw [hhead]⟩

/-- What the consumer's caller does by its script only appends. -/
theorem consumerInterlude (h : session.Holds model) (script : List (List (ProducerCall α)))
    (gone : Nat) :
    Follows (fun ring => (ring.tail, ())) gone (session.consumerInterlude script)
      (model.consumerMeanwhile script) := by
  unfold Session.consumerInterlude QueueSession.consumerMeanwhile
  rw [h.producing_eq, h.limit_eq]
  refine Follows.ofScript (fun face call queue ring hring => ?_) _ script
  obtain ⟨next, hrun, hnext, htail⟩ := hring.produceInside model.limit face call
  exact ⟨next, hrun, hnext, by rw [htail]⟩

theorem produce (h : session.Holds model) {interlude : Interlude α}
    {meanwhile : Queue.Meanwhile α}
    (hfollows : Follows (fun ring => (ring.head, ())) 0 interlude meanwhile)
    (hroom : ∀ face invocation queue, queue.free ≤ (meanwhile face invocation queue).2.free)
    (call : ProducerCall α) :
    ∃ channel, session.channel.produce session.limit interlude call =
        .ok ((model.queue.produce model.limit meanwhile call model.face).1, channel) ∧
      channel.face = (model.queue.produce model.limit meanwhile call model.face).2.1 ∧
      channel.ring.Holds 0 (model.queue.produce model.limit meanwhile call model.face).2.2 := by
  have hbounded : ∀ face, ∃ next, call.onBounded face interlude session.channel.ring =
        .ok ((model.queue.writeBounded face meanwhile call).1, next) ∧
      next.Holds 0 (model.queue.writeBounded face meanwhile call).2 := by
    intro face
    obtain ⟨next, hrun, hnext, -⟩ :=
      h.ring.writeBounded (fun _ => ()) (fun _ _ _ => rfl) hfollows hroom face call
    exact ⟨next, hrun, hnext⟩
  unfold Channel.produce Queue.produce
  rw [h.face_eq, h.limit_eq]
  cases model.face with
  | bare =>
      obtain ⟨next, hrun, hnext⟩ := hbounded .bare
      simp only [hrun, ok_bind]
      exact ⟨_, rfl, rfl, hnext⟩
  | fixed =>
      obtain ⟨next, hrun, hnext⟩ := hbounded .fixed
      simp only [hrun, ok_bind]
      exact ⟨_, rfl, rfl, hnext⟩
  | growable shown =>
      obtain ⟨next, hrun, hnext, -⟩ := h.ring.writeUnbounded _ (fun _ _ _ => rfl)
        (hfollows.mono Prod.snd) hroom model.limit shown call (.inl rfl)
      simp only [hrun, ok_bind]
      exact ⟨_, rfl, rfl, hnext⟩

theorem consume (h : session.Holds model) {interlude : Interlude α} {meanwhile : Queue.Meanwhile α}
    (hfollows : ∀ gone, Follows (fun ring => (ring.tail, ())) gone interlude meanwhile)
    (hfront : ∀ face invocation queue, queue.items <+: (meanwhile face invocation queue).2.items)
    (call : ConsumerCall α) :
    ∃ channel, session.channel.consume interlude call =
        .ok ((model.queue.consume model.face meanwhile call).1, channel) ∧
      channel.face = model.face ∧
      channel.ring.Holds 0 (model.queue.consume model.face meanwhile call).2 := by
  obtain ⟨next, hrun, hnext, -⟩ :=
    h.ring.consume (fun _ => ()) (fun _ _ _ => rfl) hfollows hfront model.face call
  unfold Channel.consume
  rw [h.face_eq, hrun]
  exact ⟨_, rfl, rfl, hnext⟩

theorem drop (h : session.Holds model) (role : Role) :
    ∃ left, session.drop role = .ok ((model.drop role).1, (model.drop role).2.1, left) ∧
      left.Holds (model.drop role).2.2 := by
  unfold Session.drop QueueSession.drop
  cases role with
  | producer =>
      simp only [h.producing_eq, h.consuming_eq]
      split
      · simp only [h.ring.dispose, ok_bind]
        exact ⟨_, rfl, h.face_eq, h.ring, h.limit_eq, rfl, rfl⟩
      · exact ⟨_, rfl, h.face_eq, h.ring, h.limit_eq, rfl, rfl⟩
  | consumer =>
      simp only [h.producing_eq, h.consuming_eq]
      split
      · simp only [h.ring.dispose, ok_bind]
        exact ⟨_, rfl, h.face_eq, h.ring, h.limit_eq, rfl, rfl⟩
      · exact ⟨_, rfl, h.face_eq, h.ring, h.limit_eq, rfl, rfl⟩

theorem dropStep (h : session.Holds model) (role : Role) :
    ∃ taken, session.dropStep role = .ok taken ∧ taken.reply = .dropped (model.drop role).1 ∧
      taken.destroyed = (model.drop role).2.1 ∧ taken.events = [] ∧
      taken.session.Holds (model.drop role).2.2 := by
  obtain ⟨left, hdrop, hleft⟩ := h.drop role
  unfold Session.dropStep
  simp only [hdrop, ok_bind]
  exact ⟨_, rfl, rfl, rfl, rfl, hleft⟩

theorem take (h : session.Holds model) {step : Step α} (hstep : session.Admits step) :
    ∃ taken, session.take step = .ok taken ∧ taken.reply = (model.take step).1 ∧
      taken.destroyed = (model.take step).2.1 ∧ taken.events = (model.take step).2.2.1 ∧
      taken.session.Holds (model.take step).2.2.2 := by
  unfold Session.take QueueSession.take
  cases step with
  | produce call script =>
      simp only [h.producing_eq]
      split
      · obtain ⟨channel, hrun, hface, hring⟩ := h.produce (h.producerInterlude script)
          (Queue.free_consumeInside model.consuming script) call
        simp only [hrun, ok_bind]
        exact ⟨_, rfl, rfl, rfl, rfl, hface, hring, h.limit_eq, h.producing_eq,
          h.consuming_eq⟩
      · exact ⟨_, rfl, rfl, rfl, rfl, h⟩
  | consume call script =>
      simp only [h.consuming_eq]
      split
      · obtain ⟨channel, hrun, hface, hring⟩ := h.consume (h.consumerInterlude script)
          (Queue.items_prefix_produceInside model.limit model.producing script) call
        simp only [hrun, ok_bind]
        exact ⟨_, rfl, rfl, rfl, rfl, hface, hring, h.limit_eq, h.producing_eq,
          h.consuming_eq⟩
      · exact ⟨_, rfl, rfl, rfl, rfl, h⟩
  | setLimit bytes =>
      exact ⟨_, rfl, rfl, rfl, rfl, h.face_eq, h.ring, rfl, h.producing_eq, h.consuming_eq⟩
  | dropProducer => exact h.dropStep .producer
  | dropConsumer => exact h.dropStep .consumer
  | regrow capacity =>
      simp only [Session.regrow, h.face_eq, h.producing_eq, h.consuming_eq]
      cases hface : model.face with
      | bare =>
          simp only
          split
          · obtain ⟨hvalid, hlarger⟩ := hstep (h.face_eq.trans hface)
            rw [h.ring.capacity_eq] at hlarger
            obtain ⟨next, hrun, hnext⟩ := h.ring.regrow session.limit hvalid hlarger
            simp only [hrun, ok_bind]
            rw [h.limit_eq] at hnext ⊢
            exact ⟨_, rfl, rfl, rfl, rfl, rfl, hnext, rfl, rfl, rfl⟩
          · exact ⟨_, rfl, rfl, rfl, rfl, h⟩
      | fixed => exact ⟨_, rfl, rfl, rfl, rfl, h⟩
      | growable shown => exact ⟨_, rfl, rfl, rfl, rfl, h⟩
  | contend item max =>
      simp only [Session.contend, h.face_eq, h.producing_eq, h.consuming_eq]
      cases hface : model.face with
      | bare => exact ⟨_, rfl, rfl, rfl, rfl, h⟩
      | fixed => exact ⟨_, rfl, rfl, rfl, rfl, h⟩
      | growable shown =>
          simp only
          split
          · obtain ⟨contested, next, hrun, hgrowable, hevents, hreply, hnext⟩ :=
              h.ring.contend session.limit shown max item
            simp only [hrun, hgrowable, ok_bind]
            exact ⟨_, rfl, hreply, rfl, hevents, rfl, hnext, h.limit_eq, rfl, rfl⟩
          · exact ⟨_, rfl, rfl, rfl, rfl, h⟩

theorem step (h : session.Holds model) {step : Step α} (hstep : session.Admits step) :
    ∃ next, session.step step = .ok ((model.step step).1, next) ∧
      next.Holds (model.step step).2 := by
  obtain ⟨taken, htake, hreply, hdestroyed, hevents, hnext⟩ := h.take hstep
  unfold Session.step QueueSession.step
  simp only [htake, hnext.status, hreply, hdestroyed, hevents, ok_bind]
  exact ⟨taken.session, rfl, hnext⟩

/-- A whole run answers as the run on the queue does. -/
theorem run (h : session.Holds model) {steps : List (Step α)} (hsteps : session.AdmitsAll steps) :
    ∃ last, session.run steps = .ok ((model.run steps).1, last) ∧
      last.Holds (model.run steps).2 := by
  induction steps generalizing session model with
  | nil => exact ⟨session, rfl, h⟩
  | cons step rest ih =>
      obtain ⟨hstep, hrest⟩ := hsteps
      obtain ⟨next, hrun, hnext⟩ := h.step hstep
      obtain ⟨last, hothers, hlast⟩ := ih hnext (hrest _ next hrun)
      unfold Session.run QueueSession.run
      simp only [hrun, hothers, ok_bind]
      exact ⟨last, rfl, hlast⟩

theorem finish (h : session.Holds model) : session.finish = .ok model.finish := by
  obtain ⟨left, hproducer, hleft⟩ := h.drop .producer
  obtain ⟨last, hconsumer, -⟩ := hleft.drop .consumer
  unfold Session.finish QueueSession.finish
  simp only [hproducer, hconsumer, ok_bind]

end Holds

end Session

end RingChannel
