import RingChannel.Proofs.CapacityStep
import RingChannel.Proofs.Refinement.Session

/-!
# What is seen of a channel

A caller sees the state of its channel with each answer, also with the answers that it gets inside
calls. What it sees there is what the queue shows at that moment, so an invariant that all moves
keep speaks about everything that is seen, in the order in which it is seen.
-/

namespace RingChannel

variable {α : Type}

/-! ## Sightings -/

/-- What a caller sees with the answer to a call, and the items that the call lost before. -/
structure Sighting where
  lost : Nat
  seen : List Status

def Reply.shown : Reply α → List Status
  | .observed observation => [observation.status]
  | _ => []

def Answer.sighting (answer : Answer α) : Sighting :=
  ⟨answer.reply.lost answer.destroyed, answer.reply.shown ++ [answer.status]⟩

def StepAnswer.sighting (answer : StepAnswer α) : Sighting :=
  match answer.reply with
  | .called reply _ => ⟨reply.lost answer.destroyed, reply.shown ++ answer.status.toList⟩
  | _ => ⟨0, answer.status.toList⟩

/-- All that is seen in a step: by the calls made inside its call, and then with its own answer. -/
def StepAnswer.sightings (answer : StepAnswer α) : List Sighting :=
  (answer.reply.nested.flatMap Prod.snd).map Answer.sighting ++ [answer.sighting]

namespace Sighting

def allLost : List Sighting → Nat
  | [] => 0
  | sighting :: rest => sighting.lost + allLost rest

/-- In one sighting after another, all that is seen is as it should be by then. That may depend on
the items lost so far, `lost` of them before the first. -/
def AllSeen (seen : Nat → Status → Prop) (lost : Nat) : List Sighting → Prop
  | [] => True
  | sighting :: rest =>
      (∀ status ∈ sighting.seen, seen (lost + sighting.lost) status) ∧
        AllSeen seen (lost + sighting.lost) rest

theorem allLost_append (first second : List Sighting) :
    allLost (first ++ second) = allLost first + allLost second := by
  induction first with
  | nil => exact (Nat.zero_add _).symm
  | cons sighting rest ih =>
      rw [List.cons_append, allLost, allLost, ih, Nat.add_assoc]

variable {seen : Nat → Status → Prop}

theorem allSeen_append {lost : Nat} {first second : List Sighting} :
    AllSeen seen lost (first ++ second) ↔
      AllSeen seen lost first ∧ AllSeen seen (lost + allLost first) second := by
  induction first generalizing lost with
  | nil => exact (true_and _).symm ▸ Iff.rfl
  | cons sighting rest ih =>
      rw [List.cons_append, AllSeen, AllSeen, allLost, ih, and_assoc, Nat.add_assoc]

theorem AllSeen.exists_lost {lost : Nat} {sightings : List Sighting}
    (h : AllSeen seen lost sightings) :
    ∀ sighting ∈ sightings, ∃ more ≤ allLost sightings, ∀ status ∈ sighting.seen,
      seen (lost + more) status := by
  induction sightings generalizing lost with
  | nil => exact List.forall_mem_nil _
  | cons first rest ih =>
      rcases h with ⟨hfirst, hrest⟩
      refine List.forall_mem_cons.2 ⟨⟨first.lost, Nat.le_add_right _ _, hfirst⟩, ?_⟩
      intro sighting hin
      rcases ih hrest sighting hin with ⟨more, hle, hseen⟩
      refine ⟨first.lost + more, Nat.add_le_add_left hle _, ?_⟩
      rw [← Nat.add_assoc]
      exact hseen

end Sighting

open Sighting

/-! ## Invariants of what is seen -/

namespace Queue

def Shows (queue : Queue α) (status : Status) : Prop :=
  ∃ face role, status = (queue.observe face role).status

theorem shows_observe (face : Face) (role : Role) (queue : Queue α) :
    ∀ status ∈ [(queue.observe face role).status], queue.Shows status := by
  intro status hstatus
  exact ⟨face, role, List.mem_singleton.1 hstatus⟩

/-- An invariant of the queue for the items lost so far, and what it says about all that is seen.
Every move keeps it that a queue of this sort makes: only one that does not grow refuses items. -/
structure Watched (growing : Bool) (holds : Nat → Queue α → Prop) (seen : Nat → Status → Prop) :
    Prop where
  shows : ∀ {lost queue status}, holds lost queue → queue.Shows status → seen lost status
  append : ∀ {lost queue} {items : List α}, items.length ≤ queue.free → holds lost queue →
    holds lost (queue.append items)
  reject : growing = false → ∀ {lost queue} count, holds lost queue →
    holds lost (queue.record (.rejected count))
  releases : ∀ {lost count queue next}, queue.Releases count next → holds lost queue →
    holds (lost + count) next
  grow : ∀ {lost queue capacity}, Capacity.isValid capacity = true → queue.capacity < capacity →
    holds lost queue → holds lost (record .growth { queue with capacity := capacity })

structure Watch (holds : Nat → Queue α → Prop) (seen : Nat → Status → Prop) (lost : Nat)
    (sightings : List Sighting) (queue : Queue α) : Prop where
  seen : AllSeen seen lost sightings
  holds : holds (lost + allLost sightings) queue

variable {holds : Nat → Queue α → Prop} {seen : Nat → Status → Prop} {lost : Nat}
  {sightings : List Sighting} {queue : Queue α}

theorem Watch.refl (h : holds lost queue) : Watch holds seen lost [] queue :=
  ⟨trivial, h⟩

theorem Watch.append {more : List Sighting} {next : Queue α}
    (h : Watch holds seen lost sightings queue)
    (hmore : Watch holds seen (lost + allLost sightings) more next) :
    Watch holds seen lost (sightings ++ more) next := by
  refine ⟨allSeen_append.2 ⟨h.seen, hmore.seen⟩, ?_⟩
  rw [allLost_append, ← Nat.add_assoc]
  exact hmore.holds

namespace Watched

variable {growing : Bool} (watched : Watched growing holds seen)

include watched

theorem note {next : Queue α} (h : Watch holds seen lost sightings queue) {performed : Performed α}
    (hnext : holds (lost + allLost sightings + performed.reply.lost performed.destroyed) next)
    (hshown : ∀ status ∈ performed.reply.shown, next.Shows status) {statuses : List Status}
    (hstatuses : ∀ status ∈ statuses, next.Shows status) :
    Watch holds seen lost (sightings ++
      [⟨performed.reply.lost performed.destroyed, performed.reply.shown ++ statuses⟩]) next := by
  refine h.append ⟨⟨?_, trivial⟩, hnext⟩
  intro status hstatus
  rcases List.mem_append.1 hstatus with hstatus | hstatus
  · exact watched.shows hnext (hshown status hstatus)
  · exact watched.shows hnext (hstatuses status hstatus)

theorem remove (count : Nat) (h : holds lost queue) : holds lost (queue.remove count) :=
  watched.releases (releases_remove count queue) h

theorem stores {next : Queue α} {refused : Nat} (hstores : queue.Stores refused next)
    (hgrowing : growing = true → refused = 0) (h : holds lost queue) : holds lost next := by
  cases hstores with
  | intro items refused hfit =>
      have happended := watched.append hfit h
      cases growing with
      | false => exact watched.reject rfl refused happended
      | true =>
          rw [hgrowing rfl, record_rejected_zero]
          exact happended

theorem regrow [Item α] {capacity : Nat} (limit : Nat) (hvalid : Capacity.isValid capacity = true)
    (hlarger : queue.capacity < capacity) (h : holds lost queue) :
    holds lost (queue.regrow limit capacity).2 := by
  unfold Queue.regrow
  split
  · exact watched.grow hvalid hlarger h
  · exact h

theorem reserved [Item α] (limit : Nat) (call : ProducerCall α) (h : holds lost queue) :
    holds lost (queue.reserved limit call) := by
  unfold Queue.reserved Queue.grow
  split
  · split
    · exact h
    · rename_i hroom
      have hshort : queue.capacity < queue.items.length + call.needed := by
        unfold free at hroom
        omega
      split
      · exact h
      · rename_i target htarget
        rcases Capacity.growthTarget_spec hshort htarget with ⟨hvalid, hlarger, -⟩
        have hgrown := watched.regrow limit hvalid hlarger h
        generalize queue.regrow limit target = answer at hgrown ⊢
        rcases answer with ⟨error | done, next⟩
        · exact hgrown
        · exact hgrown
  · exact h

theorem contend (hle : queue.items.length ≤ queue.capacity) (item : α) (max : Nat)
    (h : holds lost queue) : holds lost (queue.contend item max).2 := by
  unfold Queue.contend
  simp only
  split
  · exact h
  · rename_i hcount
    refine watched.append ?_ (watched.remove _ h)
    simp only [free, capacity_remove, items_remove, List.length_drop, List.length_singleton]
    omega

end Watched

/-! ## What calls show -/

variable [Item α]

theorem consume_shown (face : Face) (meanwhile : Meanwhile α) (call : ConsumerCall α)
    (queue : Queue α) :
    ∀ status ∈ (queue.consume face meanwhile call).1.reply.shown,
      (queue.consume face meanwhile call).2.Shows status := by
  cases call with
  | observe => exact queue.shows_observe face .consumer
  | remove | removeWithBackoff | removeUntil _ | removeInto _ | peek | peekAt _ | hold _ =>
      exact List.forall_mem_nil _
  | discard _ | discardExact _ | clear | drain _ _ | readBatch _ | peekBatch _ | readExact _ =>
      exact List.forall_mem_nil _
  | readChunked _ _ _ => exact List.forall_mem_nil _

omit [Item α] in
theorem writeBounded_shown (face : Face) (meanwhile : Meanwhile α) (call : ProducerCall α)
    (queue : Queue α) :
    (queue.writeBounded face meanwhile call).1.reply.lost
        (queue.writeBounded face meanwhile call).1.destroyed = 0 ∧
      ∀ status ∈ (queue.writeBounded face meanwhile call).1.reply.shown,
        (queue.writeBounded face meanwhile call).2.Shows status := by
  cases call with
  | observe => exact ⟨rfl, queue.shows_observe face .producer⟩
  | insert _ | insertWith _ _ | insertWithBackoff _ | insertUntil _ _ | writeBatch _ =>
      exact ⟨rfl, List.forall_mem_nil _⟩
  | writeChunked _ _ _ | writeAll _ => exact ⟨rfl, List.forall_mem_nil _⟩

theorem writeUnbounded_shown (limit shown : Nat) (meanwhile : Meanwhile α) (call : ProducerCall α)
    (queue : Queue α) :
    (queue.writeUnbounded limit meanwhile shown call).1.reply.lost
        (queue.writeUnbounded limit meanwhile shown call).1.destroyed = 0 ∧
      ∀ status ∈ (queue.writeUnbounded limit meanwhile shown call).1.reply.shown,
        (queue.writeUnbounded limit meanwhile shown call).2.2.Shows status := by
  cases call with
  | observe => exact ⟨rfl, queue.shows_observe (.growable shown) .producer⟩
  | insert _ | insertWith _ _ | insertWithBackoff _ | insertUntil _ _ | writeBatch _ =>
      exact ⟨rfl, List.forall_mem_nil _⟩
  | writeChunked _ _ _ | writeAll _ => exact ⟨rfl, List.forall_mem_nil _⟩

theorem produce_shown (limit : Nat) (meanwhile : Meanwhile α) (call : ProducerCall α) (face : Face)
    (queue : Queue α) :
    (queue.produce limit meanwhile call face).1.reply.lost
        (queue.produce limit meanwhile call face).1.destroyed = 0 ∧
      ∀ status ∈ (queue.produce limit meanwhile call face).1.reply.shown,
        (queue.produce limit meanwhile call face).2.2.Shows status := by
  cases face with
  | bare => exact queue.writeBounded_shown .bare meanwhile call
  | fixed => exact queue.writeBounded_shown .fixed meanwhile call
  | growable shown => exact queue.writeUnbounded_shown limit shown meanwhile call

def WatchInside (holds : Nat → Queue α → Prop) (seen : Nat → Status → Prop) (lost : Nat)
    (nested : List (Nat × List (Answer α))) (queue : Queue α) : Prop :=
  Watch holds seen lost ((nested.flatMap Prod.snd).map Answer.sighting) queue

theorem produceInside_cases (limit : Nat) (face : Face) (call : ProducerCall α) (queue : Queue α) :
    queue.produceInside limit face call =
        ((Performed.plain .blocked).answer (queue.observe face .producer).status, queue) ∨
      queue.produceInside limit face call =
        ((queue.produce limit .quiet call face).1.answer
            ((queue.produce limit .quiet call face).2.2.observe face .producer).status,
          (queue.produce limit .quiet call face).2.2) := by
  cases face with
  | bare | fixed => exact .inr rfl
  | growable shown =>
      unfold Queue.produceInside
      simp only
      split
      · exact .inl rfl
      · exact .inr rfl

namespace Watched

variable {growing : Bool} (watched : Watched growing holds seen)

include watched

/-! ## Calls made inside calls -/

theorem consumeInside (h : Watch holds seen lost sightings queue) (face : Face)
    (call : ConsumerCall α) :
    Watch holds seen lost (sightings ++ [(queue.consumeInside face call).1.sighting])
      (queue.consumeInside face call).2 := by
  have hquiet : (Meanwhile.quiet : Meanwhile α).Carries
      (fun _ queue => holds (lost + allLost sightings) queue) face := .quiet
  rcases hquiet.consume (fun count _ _ hmid => watched.remove count hmid)
      (fun _ _ queue => List.prefix_refl queue.items) call h.holds with ⟨mid, hmid, hreleases⟩
  exact watched.note h (watched.releases hreleases hmid) (queue.consume_shown face .quiet call)
    (shows_observe face .consumer _)

theorem produceInside (h : Watch holds seen lost sightings queue) (limit : Nat) {face : Face}
    (hface : face.growing = growing) (call : ProducerCall α) :
    Watch holds seen lost (sightings ++ [(queue.produceInside limit face call).1.sighting])
      (queue.produceInside limit face call).2 := by
  rcases queue.produceInside_cases limit face call with hanswer | hanswer
  · rw [hanswer]
    have hblocked : holds (lost + allLost sightings +
        (Performed.plain .blocked : Performed α).reply.lost []) queue := h.holds
    exact watched.note h hblocked (List.forall_mem_nil _) (shows_observe face .producer queue)
  · rw [hanswer]
    have hquiet : ∀ face, (Meanwhile.quiet : Meanwhile α).Carries
        (fun _ queue => holds (lost + allLost sightings) queue) face := fun _ => .quiet
    rcases Meanwhile.Carries.produce (fun hfit hmid => watched.append hfit hmid) hquiet
        (fun _ _ queue => Nat.le_refl queue.free) limit call face h.holds
        (watched.reserved limit call h.holds) with ⟨mid, refused, hmid, hstores, hrefused⟩
    rw [hface] at hrefused
    rcases queue.produce_shown limit .quiet call face with ⟨hlost, hshown⟩
    exact watched.note h (hlost.symm ▸ watched.stores hstores hrefused hmid) hshown
      (shows_observe face .producer _)

/-! ## Calls with calls made inside them -/

theorem carries_consumeInside (present : Bool) (script : List (List (ConsumerCall α)))
    (face : Face) :
    (Meanwhile.ofScript present Queue.consumeInside script).Carries
      (WatchInside holds seen lost) face := by
  refine carries_answers (J := fun answers => Watch holds seen lost (answers.map Answer.sighting))
    ?_ present script
  intro call answers queue hanswers
  rw [List.map_append]
  exact watched.consumeInside hanswers face call

theorem carries_produceInside (limit : Nat) (present : Bool)
    (script : List (List (ProducerCall α))) {face : Face} (hface : face.growing = growing) :
    (Meanwhile.ofScript present (Queue.produceInside limit) script).Carries
      (WatchInside holds seen lost) face := by
  refine carries_answers (J := fun answers => Watch holds seen lost (answers.map Answer.sighting))
    ?_ present script
  intro call answers queue hanswers
  rw [List.map_append]
  exact watched.produceInside hanswers limit hface call

theorem consume (h : holds lost queue) (limit : Nat) (present : Bool)
    (script : List (List (ProducerCall α))) {face : Face} (hface : face.growing = growing)
    (call : ConsumerCall α) {answer : Performed α × Queue α}
    (hanswer : queue.consume face (.ofScript present (Queue.produceInside limit) script) call =
      answer)
    {statuses : List Status} (hstatuses : ∀ status ∈ statuses, answer.2.Shows status) :
    Watch holds seen lost ((answer.1.nested.flatMap Prod.snd).map Answer.sighting ++
      [⟨answer.1.reply.lost answer.1.destroyed, answer.1.reply.shown ++ statuses⟩]) answer.2 := by
  rcases (watched.carries_produceInside limit present script hface).consume
      (fun count _ _ hmid => ⟨hmid.seen, watched.remove count hmid.holds⟩)
      (items_prefix_produceInside limit present script) call (Watch.refl h) with
    ⟨mid, hmid, hreleases⟩
  have hshown := queue.consume_shown face (.ofScript present (Queue.produceInside limit) script)
    call
  rw [hanswer] at hmid hreleases hshown
  exact watched.note hmid (watched.releases hreleases hmid.holds) hshown hstatuses

theorem produce (h : holds lost queue) (limit : Nat) (present : Bool)
    (script : List (List (ConsumerCall α))) {face : Face} (hface : face.growing = growing)
    (call : ProducerCall α) {answer : Performed α × Face × Queue α}
    (hanswer : queue.produce limit (.ofScript present Queue.consumeInside script) call face =
      answer)
    {statuses : List Status} (hstatuses : ∀ status ∈ statuses, answer.2.2.Shows status) :
    Watch holds seen lost ((answer.1.nested.flatMap Prod.snd).map Answer.sighting ++
      [⟨answer.1.reply.lost answer.1.destroyed, answer.1.reply.shown ++ statuses⟩])
      answer.2.2 := by
  rcases Meanwhile.Carries.produce
      (fun hfit hmid => ⟨hmid.seen, watched.append hfit hmid.holds⟩)
      (watched.carries_consumeInside present script) (free_consumeInside present script) limit call
      face (Watch.refl h) (Watch.refl (watched.reserved limit call h)) with
    ⟨mid, refused, hmid, hstores, hrefused⟩
  rcases queue.produce_shown limit (.ofScript present Queue.consumeInside script) call face with
    ⟨hlost, hshown⟩
  rw [hanswer] at hmid hstores hlost hshown
  rw [hface] at hrefused
  exact watched.note hmid (hlost.symm ▸ watched.stores hstores hrefused hmid.holds) hshown
    hstatuses

end Watched

omit [Item α] in
theorem contend_reply (item : α) (max : Nat) (queue : Queue α) :
    ∃ drained items inserted, (queue.contend item max).1 =
      .contended drained items inserted := by
  unfold Queue.contend
  simp only
  split
  · exact ⟨_, _, _, rfl⟩
  · exact ⟨_, _, _, rfl⟩

end Queue

/-! ## Steps and runs -/

variable [Item α] {growing : Bool} {holds : Nat → Queue α → Prop} {seen : Nat → Status → Prop}

namespace QueueSession

theorem queue_drop (session : QueueSession α) (role : Role) :
    (session.drop role).2.2.queue = session.queue := by
  cases role with
  | producer =>
      simp only [drop]
      split <;> rfl
  | consumer =>
      simp only [drop]
      split <;> rfl

theorem growing_drop (session : QueueSession α) (role : Role) :
    (session.drop role).2.2.face.growing = session.face.growing := by
  cases role with
  | producer =>
      simp only [drop]
      split <;> rfl
  | consumer =>
      simp only [drop]
      split <;> rfl

/-- No step makes a channel grow that does not grow, or the other way about. -/
theorem growing_step (session : QueueSession α) (step : Step α) :
    (session.step step).2.face.growing = session.face.growing := by
  rcases session with ⟨face, queue, limit, producing, consuming⟩
  cases step with
  | produce call script =>
      simp only [QueueSession.step, take]
      cases producing with
      | false => rfl
      | true => cases face <;> rfl
  | consume call script =>
      simp only [QueueSession.step, take]
      split <;> rfl
  | setLimit bytes => rfl
  | dropProducer => exact growing_drop _ .producer
  | dropConsumer => exact growing_drop _ .consumer
  | regrow capacity =>
      cases face with
      | bare =>
          simp only [QueueSession.step, take]
          split <;> rfl
      | fixed | growable _ => rfl
  | contend item max =>
      cases face with
      | growable shown =>
          simp only [QueueSession.step, take]
          split <;> rfl
      | bare | fixed => rfl

omit [Item α] in
theorem status_shows (session : QueueSession α) :
    ∀ status ∈ session.status.toList, session.queue.Shows status := by
  intro status hstatus
  unfold QueueSession.status at hstatus
  split at hstatus
  · exact session.queue.shows_observe _ _ status hstatus
  · cases hstatus

omit [Item α] in
theorem watch_status (watched : Queue.Watched growing holds seen) {lost : Nat}
    {next : QueueSession α} (h : holds lost next.queue) :
    Queue.Watch holds seen lost [⟨0, next.status.toList⟩] next.queue := by
  refine ⟨⟨?_, trivial⟩, h⟩
  intro status hstatus
  exact watched.shows h (next.status_shows status hstatus)

end QueueSession

namespace Session

variable {session : Session α} {model : QueueSession α}

/-- A step keeps an invariant, and shows only what the invariant says. -/
theorem Holds.step_watch (h : session.Holds model) (watched : Queue.Watched growing holds seen)
    (lost : Nat) (hface : model.face.growing = growing) {step : Step α}
    (hadmits : session.Admits step) (hqueue : holds lost model.queue) :
    Queue.Watch holds seen lost (model.step step).1.sightings (model.step step).2.queue := by
  have hstay : Queue.Watch holds seen lost [⟨0, model.status.toList⟩] model.queue :=
    QueueSession.watch_status watched hqueue
  have hdropped : ∀ role, holds lost (model.drop role).2.2.queue := by
    intro role
    rw [model.queue_drop role]
    exact hqueue
  unfold QueueSession.step QueueSession.take
  cases step with
  | produce call script =>
      simp only
      split
      · refine watched.produce hqueue model.limit model.consuming script hface call rfl ?_
        exact QueueSession.status_shows _
      · exact hstay
  | consume call script =>
      simp only
      split
      · refine watched.consume hqueue model.limit model.producing script hface call rfl ?_
        exact QueueSession.status_shows _
      · exact hstay
  | setLimit bytes => exact hstay
  | dropProducer => exact QueueSession.watch_status watched (hdropped .producer)
  | dropConsumer => exact QueueSession.watch_status watched (hdropped .consumer)
  | regrow capacity =>
      cases hbare : model.face with
      | fixed | growable _ => exact hstay
      | bare =>
          simp only
          split
          · have hcontract := hadmits (h.face_eq.trans hbare)
            rw [h.ring.capacity_eq] at hcontract
            have hgrown := watched.regrow model.limit hcontract.1 hcontract.2 hqueue
            exact QueueSession.watch_status watched hgrown
          · exact hstay
  | contend item max =>
      cases hgrowable : model.face with
      | bare | fixed => exact hstay
      | growable shown =>
          simp only
          split
          · rcases model.queue.contend_reply item max with ⟨drained, items, inserted, hreply⟩
            rw [hreply]
            have hcontended := watched.contend h.ring.length_le item max hqueue
            exact QueueSession.watch_status watched hcontended
          · exact hstay

theorem Holds.run_watch (h : session.Holds model) (watched : Queue.Watched growing holds seen)
    (lost : Nat) (hface : model.face.growing = growing) {steps : List (Step α)}
    (hsteps : session.AdmitsAll steps) (hqueue : holds lost model.queue) :
    Queue.Watch holds seen lost ((model.run steps).1.flatMap StepAnswer.sightings)
      (model.run steps).2.queue := by
  induction steps generalizing session model lost with
  | nil => exact .refl hqueue
  | cons step rest ih =>
      rcases hsteps with ⟨hstep, hrest⟩
      rcases h.step hstep with ⟨next, hrun, hnext⟩
      have hfirst := h.step_watch watched lost hface hstep hqueue
      have hothers := ih hnext _ ((model.growing_step step).trans hface) (hrest _ next hrun)
        hfirst.holds
      exact hfirst.append hothers

end Session

end RingChannel
