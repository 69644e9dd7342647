import RingChannel.Proofs.Ownership.Destroyed
import RingChannel.Proofs.Queue.Inside

/-!
# What a step does to the capacity

On a growable queue a step leaves the capacity alone, or it is a producer call that raises it once,
before it writes. Calls made inside other calls never raise it. What a step needed room for, and
what it reports and returns of a growth, can be read off its answer.
-/

namespace RingChannel

variable {α : Type}

def StepReply.nested : StepReply α → List (Nat × List (Answer α))
  | .called _ nested => nested
  | _ => []

def StepReply.growth : StepReply α → Option (Option Growth)
  | .called reply _ => reply.growth
  | .contended _ _ (some (.ok growth)) => some growth
  | _ => none

def StepAnswer.log (answer : StepAnswer α) : List Event :=
  answer.events ++ answer.reply.nested.flatMap fun entry => entry.2.flatMap Answer.events

/-- For every producer call of a step that had its room, the items that were unread when that was
decided and those to be written, taken together. Before the step `length` items were unread. A call
made inside another shows what is unread after it, which lacks the items that it did not come to
write. A contended insert is decided before the drain releases anything, or else after it. -/
def Step.demands (length capacity : Nat) : Step α → StepReply α → List Nat
  | .produce call _, .called reply _ => if reply.reserved then [length + call.needed] else []
  | .consume _ script, .called _ nested =>
      nested.flatMap fun entry =>
        (entryCalls script entry).filterMap fun made =>
          if made.2.reply.reserved then
            some (made.2.status.length + (made.1.returned made.2.reply).length)
          else none
  | .contend _ _, .contended _ items (some (.ok _)) =>
      [if length < capacity then length + 1 else length - items.length + 1]
  | _, _ => []

structure GrowsNothing (events : List Event) (reply : Reply α) : Prop where
  events : ∀ event ∈ events, event.level ≠ .debug
  growth : ∀ growth ∈ reply.growth, growth = none

theorem growsNothing_of_nil {events : List Event} {reply : Reply α} (hevents : events = [])
    (hgrowth : ∀ growth ∈ reply.growth, growth = none) : GrowsNothing events reply := by
  subst hevents
  exact ⟨List.forall_mem_nil _, hgrowth⟩

theorem growsNothing_of_none {events : List Event} {reply : Reply α} (hevents : events = [])
    (hgrowth : reply.growth = none) : GrowsNothing events reply := by
  apply growsNothing_of_nil hevents
  intro growth hin
  cases hgrowth.symm.trans hin

theorem ProducerCall.length_items (call : ProducerCall α) : call.items.length = call.needed := by
  cases call with
  | insert | insertWith | insertWithBackoff | insertUntil | observe => rfl
  | writeBatch items | writeChunked items _ _ | writeAll items => exact items.length_toList

theorem ProducerCall.given_of_reserves {call : ProducerCall α} (h : call.reserves = true)
    (reply : Reply α) : call.given reply = call.items := by
  cases call with
  | insert | writeBatch | writeChunked => rfl
  | insertWith | insertWithBackoff | insertUntil | writeAll | observe => cases h

theorem Flow.Balances.length_eq {flow : Flow α} {before after : List α}
    (h : flow.Balances before after) :
    before.length + flow.given.length =
      after.length + flow.returned.length + flow.destroyed.length := by
  have hlength := List.Perm.length_eq h
  simp only [List.length_append] at hlength
  exact hlength

namespace Queue

variable [Item α]

/-! ## Calls made inside calls -/

theorem consume_growsNothing (face : Face) (meanwhile : Meanwhile α) (call : ConsumerCall α)
    (queue : Queue α) :
    GrowsNothing (queue.consume face meanwhile call).1.events
      (queue.consume face meanwhile call).1.reply := by
  cases call with
  | clear =>
      constructor
      · intro event hevent
        simp only [consume, ConsumerCall.clearedEvents] at hevent
        split at hevent
        · cases List.mem_singleton.1 hevent
          exact Level.noConfusion
        · cases hevent
      · intro growth hgrowth
        cases hgrowth
  | remove | removeWithBackoff | removeUntil _ | removeInto _ | peek | peekAt _ | hold _ =>
      exact growsNothing_of_none rfl rfl
  | discard _ | discardExact _ | drain _ _ | readBatch _ | peekBatch _ | readExact _ =>
      exact growsNothing_of_none rfl rfl
  | readChunked _ _ _ | observe => exact growsNothing_of_none rfl rfl

omit [Item α] in
theorem writeBounded_growsNothing (face : Face) (meanwhile : Meanwhile α) (call : ProducerCall α)
    (queue : Queue α) :
    GrowsNothing (queue.writeBounded face meanwhile call).1.events
        (queue.writeBounded face meanwhile call).1.reply ∧
      (queue.writeBounded face meanwhile call).1.reply.reserved = false := by
  cases call <;> exact ⟨growsNothing_of_none rfl rfl, rfl⟩

/-- With room for all that it writes, a call does not grow the queue. -/
theorem writeUnbounded_growsNothing {queue : Queue α} {call : ProducerCall α} (limit shown : Nat)
    (meanwhile : Meanwhile α) (hroom : call.needed ≤ queue.free) :
    GrowsNothing (queue.writeUnbounded limit meanwhile shown call).1.events
      (queue.writeUnbounded limit meanwhile shown call).1.reply := by
  cases hcall : call.reserves with
  | false =>
      rcases writeUnbounded_of_not_reserves shown meanwhile limit queue hcall with
        ⟨reply, hrun, hgrowth, -⟩
      rw [hrun]
      exact growsNothing_of_none rfl hgrowth
  | true =>
      have hgrow : queue.grow limit call.needed = (.ok none, [], queue) := by
        rw [grow, if_pos hroom]
      rcases writeUnbounded_of_ok shown meanwhile hcall (congrArg Prod.fst hgrow) with
        ⟨-, hgrowth, hevents⟩
      rw [hgrow] at hevents
      exact growsNothing_of_nil hevents hgrowth

theorem consumeInside_growsNothing (face : Face) (call : ConsumerCall α) (queue : Queue α) :
    GrowsNothing (queue.consumeInside face call).1.events (queue.consumeInside face call).1.reply :=
  queue.consume_growsNothing face .quiet call

theorem produceInside_growsNothing (limit : Nat) (face : Face) (call : ProducerCall α)
    (queue : Queue α) :
    GrowsNothing (queue.produceInside limit face call).1.events
      (queue.produceInside limit face call).1.reply := by
  cases face with
  | bare => exact (queue.writeBounded_growsNothing .bare .quiet call).1
  | fixed => exact (queue.writeBounded_growsNothing .fixed .quiet call).1
  | growable shown =>
      simp only [produceInside]
      split
      · exact growsNothing_of_none rfl rfl
      · rename_i hroom
        exact writeUnbounded_growsNothing limit shown .quiet (Nat.not_lt.1 hroom)

theorem room_of_reserved {limit : Nat} {face : Face} {call : ProducerCall α} {queue : Queue α}
    (h : (queue.produceInside limit face call).1.reply.reserved = true) :
    call.reserves = true ∧ call.needed ≤ queue.free := by
  cases face with
  | bare => cases (queue.writeBounded_growsNothing .bare .quiet call).2.symm.trans h
  | fixed => cases (queue.writeBounded_growsNothing .fixed .quiet call).2.symm.trans h
  | growable shown =>
      simp only [produceInside] at h
      split at h
      · cases h
      · rename_i hroom
        refine ⟨?_, Nat.not_lt.1 hroom⟩
        cases hcall : call.reserves with
        | true => rfl
        | false =>
            rcases writeUnbounded_of_not_reserves shown .quiet limit queue hcall with
              ⟨reply, hrun, -, hreserved⟩
            rw [hrun] at h
            cases hreserved.symm.trans h

/-- What is unread after a call that had its room, with what the call did not come to write, is
what was unread before it with all that it wanted to write. -/
theorem produceInside_demand {limit : Nat} {face : Face} {call : ProducerCall α} {queue : Queue α}
    (h : (queue.produceInside limit face call).1.reply.reserved = true) :
    (queue.produceInside limit face call).1.status.length +
        (call.returned (queue.produceInside limit face call).1.reply).length =
      queue.items.length + call.needed := by
  have hbalances := (queue.produceInside_balances limit face call).length_eq
  have hdestroyed := queue.produceInside_destroys limit face call
  have hstatus : (queue.produceInside limit face call).1.status.length =
      (queue.produceInside limit face call).2.items.length := by
    unfold produceInside
    split
    · split <;> rfl
    · rfl
  unfold ProducerCall.Destroys at hdestroyed
  simp only [ProducerCall.flow, hdestroyed,
    ProducerCall.given_of_reserves (room_of_reserved h).1, ProducerCall.length_items,
    List.length_nil] at hbalances
  omega

/-! ## What the caller does by its script -/

theorem consumeInside_inside (present : Bool) (script : List (List (ConsumerCall α)))
    (face : Face) :
    (Meanwhile.ofScript present consumeInside script).Carries
      (fun nested _ => ∀ answer ∈ nested.flatMap Prod.snd,
        GrowsNothing answer.events answer.reply) face := by
  refine carries_answers (J := fun answers _ => ∀ answer ∈ answers,
    GrowsNothing answer.events answer.reply) ?_ present script
  intro call answers queue hanswers answer hin
  rcases List.mem_append.1 hin with hin | hin
  · exact hanswers answer hin
  · cases List.mem_singleton.1 hin
    exact consumeInside_growsNothing face call queue

/-- Producer calls made inside a consumer call grow nothing, and all that had room had it in the
capacity that there is. -/
structure Afforded (capacity : Nat) (calls : List (ProducerCall α × Answer α)) (queue : Queue α) :
    Prop where
  capacity_eq : queue.capacity = capacity
  length_le : queue.items.length ≤ capacity
  demand_le : ∀ made ∈ calls, made.2.reply.reserved = true →
    made.2.status.length + (made.1.returned made.2.reply).length ≤ capacity
  growsNothing : ∀ made ∈ calls, GrowsNothing made.2.events made.2.reply

theorem Afforded.produceInside {capacity : Nat} {calls : List (ProducerCall α × Answer α)}
    {queue : Queue α} (h : Afforded capacity calls queue) (limit : Nat) (face : Face)
    (call : ProducerCall α) :
    Afforded capacity (calls ++ [(call, (queue.produceInside limit face call).1)])
      (queue.produceInside limit face call).2 := by
  have hsteady := chains_steady.produceInside steady_write limit face call queue
  have hle := h.length_le
  rw [← h.capacity_eq] at hle
  refine ⟨hsteady.capacity_eq.trans h.capacity_eq, ?_, ?_, ?_⟩
  · rw [← h.capacity_eq, ← hsteady.capacity_eq]
    exact hsteady.length_le hle
  · intro made hmade hreserved
    rcases List.mem_append.1 hmade with hmade | hmade
    · exact h.demand_le made hmade hreserved
    · cases List.mem_singleton.1 hmade
      have hroom := (room_of_reserved hreserved).2
      rw [produceInside_demand hreserved, ← h.capacity_eq]
      unfold free at hroom
      omega
  · intro made hmade
    rcases List.mem_append.1 hmade with hmade | hmade
    · exact h.growsNothing made hmade
    · cases List.mem_singleton.1 hmade
      exact produceInside_growsNothing limit face call queue

omit [Item α] in
theorem Afforded.remove {capacity : Nat} {calls : List (ProducerCall α × Answer α)}
    {queue : Queue α} (h : Afforded capacity calls queue) (count : Nat) :
    Afforded capacity calls (queue.remove count) := by
  refine ⟨(capacity_remove count queue).trans h.capacity_eq, ?_, h.demand_le, h.growsNothing⟩
  rw [items_remove, List.length_drop]
  exact Nat.le_trans (Nat.sub_le _ _) h.length_le

/-! ## Keeping the capacity and raising it -/

/-- From `queue` to `next` the capacity stays, no growth is reported or returned, and there was room
for every demand. -/
structure Keeps (queue next : Queue α) (events : List Event) (growth : Option (Option Growth))
    (demands : List Nat) : Prop where
  steady : queue.Steady next
  events : ∀ event ∈ events, event.level ≠ .debug
  growth : ∀ result ∈ growth, result = none
  demands : ∀ total ∈ demands, total ≤ queue.capacity

/-- From `queue` to `next` the capacity is raised to `target` to make room for `total` items, and
that is what is reported, and returned if anything is. -/
structure Raises (queue next : Queue α) (events : List Event) (growth : Option (Option Growth))
    (total target : Nat) : Prop where
  short : queue.capacity < total
  least : Capacity.LeastPower total target
  steady : ({ queue with capacity := target }.record .growth).Steady next
  events : events = [.grew ⟨queue.capacity, target⟩]
  growth : ∀ result ∈ growth, result = some ⟨queue.capacity, target⟩

omit [Item α] in
theorem Keeps.refl (queue : Queue α) : queue.Keeps queue [] none [] :=
  ⟨chains_steady.refl queue, List.forall_mem_nil _, by simp, List.forall_mem_nil _⟩

theorem writeUnbounded_cases {queue : Queue α}
    (hvalid : Capacity.isValid queue.capacity = true)
    (hle : queue.items.length ≤ queue.capacity) (limit shown : Nat) {meanwhile : Meanwhile α}
    (hmeanwhile : ∀ face invocation queue, Steady queue (meanwhile face invocation queue).2)
    (call : ProducerCall α) :
    queue.Keeps (queue.writeUnbounded limit meanwhile shown call).2.2
        (queue.writeUnbounded limit meanwhile shown call).1.events
        (queue.writeUnbounded limit meanwhile shown call).1.reply.growth
        (if (queue.writeUnbounded limit meanwhile shown call).1.reply.reserved then
          [queue.items.length + call.needed] else []) ∧
      (queue.writeUnbounded limit meanwhile shown call).2.1 = shown ∨
    ∃ target, queue.Raises (queue.writeUnbounded limit meanwhile shown call).2.2
        (queue.writeUnbounded limit meanwhile shown call).1.events
        (queue.writeUnbounded limit meanwhile shown call).1.reply.growth
        (queue.items.length + call.needed) target ∧
      (queue.writeUnbounded limit meanwhile shown call).1.reply.reserved = true ∧
      (queue.writeUnbounded limit meanwhile shown call).2.1 = target := by
  have hsteady := chains_steady.writeUnbounded hmeanwhile steady_write limit shown queue call
  cases hcall : call.reserves with
  | false =>
      rcases writeUnbounded_of_not_reserves shown meanwhile limit queue hcall with
        ⟨reply, hrun, hgrowth, hreserved⟩
      simp only [hrun, Performed.plain, hgrowth, hreserved, Bool.false_eq_true, if_false]
      exact .inl ⟨.refl queue, trivial⟩
  | true =>
      have hshown := shown_writeUnbounded shown meanwhile limit queue hcall
      have hafter : queue.reserved limit call = (queue.grow limit call.needed).2.2 := if_pos hcall
      rw [hafter] at hsteady
      by_cases hroom : queue.items.length + call.needed ≤ queue.capacity
      · have hgrow := grow_of_room limit hroom
        have hnothing := writeUnbounded_growsNothing limit shown meanwhile
          (show call.needed ≤ queue.free by unfold free; omega)
        rw [hgrow] at hshown hsteady
        refine .inl ⟨⟨hsteady, hnothing.events, hnothing.growth, ?_⟩, hshown⟩
        intro total htotal
        split at htotal
        · cases List.mem_singleton.1 htotal
          exact hroom
        · cases htotal
      · have hshort := Nat.not_le.1 hroom
        by_cases hstuck : Stuck α limit (queue.items.length + call.needed)
        · have hgrow := grow_of_stuck hvalid hle rfl hshort hstuck
          have hrun := writeUnbounded_of_error shown meanwhile hcall (congrArg Prod.fst hgrow)
          simp only [hrun, hgrow, Reply.growth_refusal, Reply.reserved_refusal, Bool.false_eq_true,
            if_false]
          refine .inl ⟨⟨chains_steady.refl queue, ?_, by simp, List.forall_mem_nil _⟩, trivial⟩
          intro event hevent
          cases List.mem_singleton.1 hevent
          exact Level.noConfusion
        · have hgrow := grow_of_not_stuck hvalid hle rfl hshort hstuck
          rcases writeUnbounded_of_ok shown meanwhile hcall (congrArg Prod.fst hgrow) with
            ⟨hreserved, hgrowth, hevents⟩
          rw [hgrow] at hshown hsteady hevents
          exact .inr ⟨_, ⟨hshort, Capacity.leastPower_roundUp _, hsteady, hevents, hgrowth⟩,
            hreserved, hshown⟩

omit [Item α] in
/-- A drain that hands over an item makes the room that the contending insert needs. -/
theorem contend_keeps {queue : Queue α} (hle : queue.items.length ≤ queue.capacity) (item : α)
    (max : Nat) :
    queue.Keeps (queue.contend item max).2 [] (queue.contend item max).1.growth
      ((Step.contend item max).demands queue.items.length queue.capacity
        (queue.contend item max).1) := by
  generalize hcount : min max queue.items.length = count
  by_cases hzero : count = 0
  · simp only [contend, hcount, hzero, if_true]
    exact .refl queue
  · have hfit : [item].length ≤ (queue.remove count).free := by
      simp only [free, capacity_remove, items_remove, List.length_drop, List.length_singleton]
      omega
    simp only [contend, hcount, hzero, if_false]
    refine ⟨chains_steady.trans (chains_steady.remove steady_behead count queue)
      (chains_steady.append steady_write hfit), List.forall_mem_nil _, ?_, ?_⟩
    · intro result hresult
      exact (Option.some.inj hresult).symm
    · intro total htotal
      cases List.mem_singleton.1 htotal
      simp only [List.length_take]
      split <;> omega

end Queue

/-! ## Steps on a queue -/

namespace QueueSession

variable [Item α] {session : QueueSession α}

structure Growing (session : QueueSession α) : Prop where
  face_eq : session.face = .growable session.queue.capacity
  valid : Capacity.isValid session.queue.capacity = true
  length_le : session.queue.items.length ≤ session.queue.capacity

theorem Growing.inside_consume (h : session.Growing) (script : List (List (ProducerCall α)))
    (call : ConsumerCall α) :
    ∀ entry ∈ (session.queue.consume session.face (session.consumerMeanwhile script)
        call).1.nested,
      (∀ made ∈ entryCalls script entry, made.2.reply.reserved = true →
        made.2.status.length + (made.1.returned made.2.reply).length ≤ session.queue.capacity) ∧
      ∀ answer ∈ entry.2, GrowsNothing answer.events answer.reply := by
  have hscript : (session.consumerMeanwhile script).Carries
      (fun nested queue => Queue.Afforded session.queue.capacity
          (nested.flatMap (entryCalls script)) queue ∧
        ∀ entry ∈ nested, (entryCalls script entry).map Prod.snd = entry.2) session.face :=
    Queue.carries_ofScript (fun call _ _ hcalls => hcalls.produceInside session.limit _ call)
      session.producing script
  rcases hscript.consume (fun count _ _ hmid => ⟨hmid.1.remove count, hmid.2⟩)
      (Queue.items_prefix_produceInside session.limit session.producing script) call
      ⟨⟨rfl, h.length_le, List.forall_mem_nil _, List.forall_mem_nil _⟩, List.forall_mem_nil _⟩ with
    ⟨mid, ⟨hmid, hanswers⟩, -⟩
  intro entry hentry
  refine ⟨fun made hmade => hmid.demand_le made (List.mem_flatMap.2 ⟨entry, hentry, hmade⟩), ?_⟩
  exact Queue.forall_answers hmid.growsNothing hanswers entry hentry

theorem Growing.inside (h : session.Growing) (step : Step α) :
    ∀ entry ∈ (session.step step).1.reply.nested, ∀ answer ∈ entry.2,
      GrowsNothing answer.events answer.reply := by
  obtain ⟨face, queue, limit, producing, consuming⟩ := session
  have hface : face = .growable queue.capacity := h.face_eq
  subst hface
  cases step with
  | produce call script =>
      cases producing with
      | false => exact List.forall_mem_nil _
      | true =>
          rcases Queue.Meanwhile.Carries.writeUnbounded (fun _ hmid => hmid)
              (Queue.free_consumeInside consuming script) limit queue.capacity call
              (Queue.consumeInside_inside consuming script _) (List.forall_mem_nil _) with
            ⟨mid, hanswers, -⟩
          intro entry hentry answer hanswer
          exact hanswers answer (List.mem_flatMap.2 ⟨entry, hentry, hanswer⟩)
  | consume call script =>
      cases consuming with
      | false => exact List.forall_mem_nil _
      | true => exact fun entry hentry => (h.inside_consume script call entry hentry).2
  | setLimit _ | dropProducer | dropConsumer | regrow _ => exact List.forall_mem_nil _
  | contend item max =>
      cases producing with
      | false => exact List.forall_mem_nil _
      | true =>
          cases consuming with
          | false => exact List.forall_mem_nil _
          | true =>
              simp only [step, take, Bool.and_self, if_true, Queue.contend]
              split <;> exact List.forall_mem_nil _

theorem Growing.consume_keeps (h : session.Growing) (script : List (List (ProducerCall α)))
    (call : ConsumerCall α) :
    session.queue.Keeps
      (session.queue.consume session.face (session.consumerMeanwhile script) call).2
      (session.queue.consume session.face (session.consumerMeanwhile script) call).1.events
      (session.queue.consume session.face (session.consumerMeanwhile script) call).1.reply.growth
      ((Step.consume call script).demands session.queue.items.length session.queue.capacity
        (.called
          (session.queue.consume session.face (session.consumerMeanwhile script) call).1.reply
          (session.queue.consume session.face (session.consumerMeanwhile script)
            call).1.nested)) := by
  have hinside := h.inside_consume script call
  have hsteady := Queue.chains_steady.consume
    (Queue.chains_steady.ofScript
      (Queue.chains_steady.produceInside Queue.steady_write session.limit) session.producing script)
    Queue.steady_behead session.face session.queue call
  have hnothing := session.queue.consume_growsNothing session.face
    (session.consumerMeanwhile script) call
  refine ⟨hsteady, hnothing.events, hnothing.growth, ?_⟩
  intro total htotal
  rcases List.mem_flatMap.1 htotal with ⟨entry, hentry, hin⟩
  rcases List.mem_filterMap.1 hin with ⟨made, hmade, hsome⟩
  split at hsome
  · cases hsome
    exact (hinside entry hentry).1 made hmade (by assumption)
  · cases hsome

/-- A step keeps the capacity, or it is a producer call that raises it to the least power of two
that is enough for what is unread and what it brings. -/
theorem Growing.step_cases (h : session.Growing) (step : Step α) :
    session.queue.Keeps (session.step step).2.queue (session.step step).1.events
        (session.step step).1.reply.growth
        (step.demands session.queue.items.length session.queue.capacity
          (session.step step).1.reply) ∧
      (session.step step).2.face = session.face ∨
    ∃ call script target, step = .produce call script ∧
      session.queue.Raises (session.step step).2.queue (session.step step).1.events
        (session.step step).1.reply.growth (session.queue.items.length + call.needed) target ∧
      step.demands session.queue.items.length session.queue.capacity (session.step step).1.reply =
        [session.queue.items.length + call.needed] ∧
      (session.step step).2.face = .growable target := by
  obtain ⟨face, queue, limit, producing, consuming⟩ := session
  have hface : face = .growable queue.capacity := h.face_eq
  have hle : queue.items.length ≤ queue.capacity := h.length_le
  subst hface
  cases step with
  | produce call script =>
      cases producing with
      | false => exact .inl ⟨.refl queue, rfl⟩
      | true =>
          have hmeanwhile := Queue.chains_steady.ofScript
            (Queue.chains_steady.consumeInside Queue.steady_behead) consuming script
          rcases Queue.writeUnbounded_cases h.valid hle limit queue.capacity hmeanwhile call with
            ⟨hkeeps, hshown⟩ | ⟨target, hraises, hreserved, hshown⟩
          · exact .inl ⟨hkeeps, congrArg Face.growable hshown⟩
          · exact .inr ⟨call, script, target, rfl, hraises, if_pos hreserved,
              congrArg Face.growable hshown⟩
  | consume call script =>
      cases consuming with
      | false => exact .inl ⟨.refl queue, rfl⟩
      | true => exact .inl ⟨h.consume_keeps script call, rfl⟩
  | setLimit bytes => exact .inl ⟨.refl queue, rfl⟩
  | dropProducer | dropConsumer =>
      cases producing <;> cases consuming <;> exact .inl ⟨.refl queue, rfl⟩
  | regrow capacity => exact .inl ⟨.refl queue, rfl⟩
  | contend item max =>
      cases producing with
      | false => exact .inl ⟨.refl queue, rfl⟩
      | true =>
          cases consuming with
          | false => exact .inl ⟨.refl queue, rfl⟩
          | true => exact .inl ⟨Queue.contend_keeps hle item max, rfl⟩

end QueueSession

end RingChannel
