import Mathlib.Order.Bounds.Basic
import RingChannel.Proofs.CapacityStep
import RingChannel.Proofs.Soundness

/-!
# The capacity over a run

The capacity of a growable ring has a history: it is the least power of two that was ever enough for
everything that had to fit. The growths that led to it follow on each other, each at least doubles,
and so there are few of them. The shown capacity, the reports, the count of growths, and what the
producer calls return all tell the same history.
-/

namespace RingChannel

variable {α : Type}

/-! ## Histories of growths -/

namespace Capacity

/-- The starting capacity, and the least powers of two that are enough for the demands. -/
def candidates (start : Nat) (demands : List Nat) : Set Nat :=
  {capacity | capacity = start ∨ ∃ total ∈ demands, LeastPower total capacity}

theorem isGreatest_of_enough {capacity : Nat} {demands : List Nat}
    (hvalid : isValid capacity = true) (henough : ∀ total ∈ demands, total ≤ capacity) :
    IsGreatest (candidates capacity demands) capacity := by
  rcases isValid_iff.1 hvalid with ⟨k, -, rfl⟩
  refine ⟨.inl rfl, ?_⟩
  rintro other (rfl | ⟨total, htotal, hleast⟩)
  · exact Nat.le_refl _
  · exact hleast.least k (henough total htotal)

theorem isGreatest_of_short {capacity total target : Nat} (hshort : capacity < total)
    (hleast : LeastPower total target) : IsGreatest (candidates capacity [total]) target := by
  refine ⟨.inr ⟨total, List.mem_singleton_self total, hleast⟩, ?_⟩
  rintro other (rfl | ⟨total', htotal, hleast'⟩)
  · exact Nat.le_of_lt (Nat.lt_of_lt_of_le hshort hleast.le)
  · cases List.mem_singleton.1 htotal
    exact Nat.le_of_eq (hleast'.unique hleast)

/-- What comes later only has to be compared with what was the greatest so far. -/
theorem isGreatest_append {first mid last : Nat} {demands later : List Nat}
    (h : IsGreatest (candidates first demands) mid) (h' : IsGreatest (candidates mid later) last) :
    IsGreatest (candidates first (demands ++ later)) last := by
  have hmid : mid ≤ last := h'.2 (.inl rfl)
  constructor
  · rcases h'.1 with rfl | ⟨total, htotal, hleast⟩
    · rcases h.1 with rfl | ⟨total, htotal, hleast⟩
      · exact .inl rfl
      · exact .inr ⟨total, List.mem_append_left later htotal, hleast⟩
    · exact .inr ⟨total, List.mem_append_right demands htotal, hleast⟩
  · rintro other (rfl | ⟨total, htotal, hleast⟩)
    · exact Nat.le_trans (h.2 (.inl rfl)) hmid
    · rcases List.mem_append.1 htotal with htotal | htotal
      · exact Nat.le_trans (h.2 (.inr ⟨total, htotal, hleast⟩)) hmid
      · exact h'.2 (.inr ⟨total, htotal, hleast⟩)

theorem double_le {capacity total target : Nat} (hvalid : isValid capacity = true)
    (hshort : capacity < total) (hleast : LeastPower total target) : 2 * capacity ≤ target := by
  rcases isValid_iff.1 hvalid with ⟨j, -, rfl⟩
  rcases hleast.isPower with ⟨k, rfl⟩
  have hle := hleast.le
  have hjk : ¬ k ≤ j := by
    rw [← shift_le_iff]
    omega
  have hdouble : 1 <<< (j + 1) ≤ 1 <<< k := shift_le_iff.2 (by omega)
  rw [Nat.shiftLeft_succ] at hdouble
  exact hdouble

end Capacity

/-- Growths that lead from one capacity to another. Each starts where the one before ended, and at
least doubles. -/
inductive Growth.Chain : Nat → List Growth → Nat → Prop where
  | done (capacity : Nat) : Chain capacity [] capacity
  | step {growth : Growth} {rest : List Growth} {last : Nat}
      (hdouble : 2 * growth.before ≤ growth.after) (hrest : Chain growth.after rest last) :
      Chain growth.before (growth :: rest) last

namespace Growth.Chain

theorem append {first mid last : Nat} {growths later : List Growth}
    (h : Chain first growths mid) (h' : Chain mid later last) :
    Chain first (growths ++ later) last := by
  induction h with
  | done capacity => exact h'
  | step hdouble hrest ih => exact .step hdouble (ih h')

theorem shift_le {first last : Nat} {growths : List Growth} (h : Chain first growths last) :
    first * 1 <<< growths.length ≤ last := by
  induction h with
  | done capacity => exact Nat.le_of_eq (Nat.mul_one capacity)
  | @step growth rest last hdouble hrest ih =>
      calc
        growth.before * 1 <<< (rest.length + 1)
        _ = 2 * growth.before * 1 <<< rest.length := by
          rw [Nat.shiftLeft_succ, Nat.mul_left_comm, Nat.mul_assoc]
        _ ≤ growth.after * 1 <<< rest.length := Nat.mul_le_mul_right _ hdouble
        _ ≤ last := ih

/-- There are no more doublings between two capacities than a word has bits, but for one. -/
theorem length_le {first last : Nat} {growths : List Growth} (h : Chain first growths last)
    (hpos : 0 < first) (hvalid : Capacity.isValid last = true) : growths.length ≤ 63 := by
  rcases Capacity.isValid_iff.1 hvalid with ⟨k, hk, rfl⟩
  have hshift : 1 <<< growths.length ≤ 1 <<< k :=
    Nat.le_trans (Nat.le_mul_of_pos_left _ hpos) h.shift_le
  have hle := Capacity.shift_le_iff.1 hshift
  omega

end Growth.Chain

def Event.growth : Event → Option Growth
  | .grew growth => some growth
  | .growthFailed _ _ | .cleared _ => none

/-- The growths that were reported in a step, also by the calls made inside its call. -/
def StepAnswer.growths (answer : StepAnswer α) : List Growth :=
  answer.log.filterMap Event.growth

theorem StepAnswer.growths_eq (answer : StepAnswer α) :
    answer.growths = (answer.log.filter fun event => event.level = .debug).filterMap
      Event.growth := by
  unfold growths
  rw [List.filterMap_filter]
  congr 1
  funext event
  cases event <;> rfl

/-! ## One step -/

namespace Session

variable [Item α]

def growthTo (session next : Session α) : Option Growth :=
  if next.channel.ring.capacity = session.channel.ring.capacity then none
  else some ⟨session.channel.ring.capacity, next.channel.ring.capacity⟩

/-- What a step tells about the capacity is what happened to it. A growth is the work of a producer
call that had too little room, and the call comes back with it unless it is broken off. -/
structure Tells (session : Session α) (step : Step α) (answer : StepAnswer α)
    (next : Session α) : Prop where
  monotone : session.channel.ring.capacity ≤ next.channel.ring.capacity
  logged : (answer.log.filter fun event => event.level = .debug) =
    (session.growthTo next).toList.map .grew
  counted : session.channel.ring.config.metered = true →
    next.channel.ring.metrics.growths =
      session.channel.ring.metrics.growths + UInt64.ofNat (session.growthTo next).toList.length
  returned : ∀ growth ∈ answer.reply.growth, growth = session.growthTo next
  inside : ∀ entry ∈ answer.reply.nested, ∀ made ∈ entry.2, ∀ growth ∈ made.reply.growth,
    growth = none
  needed : ∀ growth ∈ session.growthTo next, ∃ call script reply nested,
    step = .produce call script ∧ answer.reply = .called reply nested ∧
      session.channel.ring.capacity < session.channel.ring.length + call.needed ∧
      (reply.growth = some (some growth) ∨ reply.brokenOff = true)

/-- The session grows its ring and shows the capacity that it has. -/
def Growing (session : Session α) : Prop :=
  ∃ model, session.Holds model ∧ model.face = .growable model.queue.capacity

def demandsAll (session : Session α) : List (Step α) → List Nat
  | [] => []
  | step :: rest =>
      match session.step step with
      | .ok (answer, next) =>
          step.demands session.channel.ring.length session.channel.ring.capacity answer.reply ++
            next.demandsAll rest
      | .error _ => []

end Session

theorem QueueSession.Growing.log_eq [Item α] {session : QueueSession α} (h : session.Growing)
    (step : Step α) :
    ((session.step step).1.log.filter fun event => event.level = .debug) =
      (session.step step).1.events.filter fun event => event.level = .debug := by
  have hinside : ((session.step step).1.reply.nested.flatMap fun entry =>
      entry.2.flatMap Answer.events).filter (fun event => event.level = .debug) = [] := by
    apply List.filter_eq_nil_iff.2
    intro event hevent
    rcases List.mem_flatMap.1 hevent with ⟨entry, hentry, hin⟩
    rcases List.mem_flatMap.1 hin with ⟨made, hmade, hin⟩
    simpa using (h.inside step entry hentry made hmade).events event hin
  unfold StepAnswer.log
  rw [List.filter_append, hinside, List.append_nil]

theorem Step.reserved_of_demands {length capacity total : Nat} {call : ProducerCall α}
    {script : List (List (ConsumerCall α))} {reply : StepReply α}
    (h : (Step.produce call script).demands length capacity reply = [total]) :
    ∃ answer nested, reply = .called answer nested ∧ answer.reserved = true := by
  cases reply with
  | called answer nested =>
      refine ⟨answer, nested, rfl, ?_⟩
      simp only [demands] at h
      split at h
      · assumption
      · cases h
  | limitSet | dropped _ | regrown _ | contended _ _ _ | gone | unsupported => cases h

theorem Queue.Steady.growths_metrics {a b : Queue α} (h : a.Steady b) :
    b.metrics.growths = a.metrics.growths := by
  unfold Queue.metrics
  rw [h.metered_eq]
  split
  · exact h.growths_eq
  · rfl

namespace Session

variable [Item α] {session next : Session α} {model : QueueSession α}

omit [Item α] in
theorem growthTo_of_eq (h : next.channel.ring.capacity = session.channel.ring.capacity) :
    session.growthTo next = none :=
  if_pos h

omit [Item α] in
theorem growthTo_of_ne (h : next.channel.ring.capacity ≠ session.channel.ring.capacity) :
    session.growthTo next =
      some ⟨session.channel.ring.capacity, next.channel.ring.capacity⟩ :=
  if_neg h

omit [Item α] in
theorem Holds.growing (h : session.Holds model)
    (hface : model.face = .growable model.queue.capacity) : model.Growing :=
  ⟨hface, h.ring.capacity_valid, h.ring.length_le⟩

/-- A step tells what it does to the capacity, and does to it what its demands make it do. -/
structure Advances (session : Session α) (step : Step α) (answer : StepAnswer α)
    (next : Session α) : Prop where
  tells : session.Tells step answer next
  metered_eq : next.channel.ring.config.metered = session.channel.ring.config.metered
  greatest : IsGreatest (Capacity.candidates session.channel.ring.capacity
    (step.demands session.channel.ring.length session.channel.ring.capacity answer.reply))
    next.channel.ring.capacity
  chain : Growth.Chain session.channel.ring.capacity answer.growths next.channel.ring.capacity

theorem Holds.advances_of_keeps {step : Step α} (h : session.Holds model)
    (hgrowing : model.Growing)
    (hnext : next.Holds (model.step step).2)
    (hkeeps : model.queue.Keeps (model.step step).2.queue (model.step step).1.events
      (model.step step).1.reply.growth
      (step.demands model.queue.items.length model.queue.capacity (model.step step).1.reply)) :
    session.Advances step (model.step step).1 next := by
  have hcapacity : next.channel.ring.capacity = session.channel.ring.capacity := by
    rw [hnext.ring.capacity_eq, h.ring.capacity_eq, hkeeps.steady.capacity_eq]
  have hnone := growthTo_of_eq hcapacity
  have hsilent : ((model.step step).1.log.filter fun event => event.level = .debug) = [] := by
    rw [hgrowing.log_eq step]
    apply List.filter_eq_nil_iff.2
    intro event hevent
    simpa using hkeeps.events event hevent
  refine ⟨⟨Nat.le_of_eq hcapacity.symm, ?_, ?_, ?_, ?_, ?_⟩, ?_, ?_, ?_⟩
  · rw [hsilent, hnone]
    rfl
  · intro _
    rw [hnone, hnext.ring.metrics_eq, h.ring.metrics_eq, hkeeps.steady.growths_metrics]
    exact (UInt64.add_zero _).symm
  · rw [hnone]
    exact hkeeps.growth
  · exact fun entry hentry made hmade => (hgrowing.inside step entry hentry made hmade).growth
  · rw [hnone]
    intro growth hgrowth
    cases hgrowth
  · rw [hnext.ring.metered_eq, h.ring.metered_eq, hkeeps.steady.metered_eq]
  · rw [hcapacity, h.ring.capacity_eq, h.ring.length_eq]
    exact Capacity.isGreatest_of_enough hgrowing.valid hkeeps.demands
  · rw [StepAnswer.growths_eq, hsilent, hcapacity]
    exact .done _

theorem Holds.advances_of_raises (h : session.Holds model) (hgrowing : model.Growing)
    {call : ProducerCall α} {script : List (List (ConsumerCall α))} {total target : Nat}
    (hnext : next.Holds (model.step (.produce call script)).2)
    (htotal : model.queue.items.length + call.needed = total)
    (hraises : model.queue.Raises (model.step (.produce call script)).2.queue
      (model.step (.produce call script)).1.events
      (model.step (.produce call script)).1.reply.growth total target)
    (hdemands : (Step.produce call script).demands model.queue.items.length model.queue.capacity
      (model.step (.produce call script)).1.reply = [total]) :
    session.Advances (.produce call script) (model.step (.produce call script)).1 next := by
  have hbefore : session.channel.ring.capacity = model.queue.capacity := h.ring.capacity_eq
  have hafter : next.channel.ring.capacity = target := by
    rw [hnext.ring.capacity_eq, hraises.steady.capacity_eq, Queue.capacity_record]
  have hlt : model.queue.capacity < target := Nat.lt_of_lt_of_le hraises.short hraises.least.le
  have hsome : session.growthTo next = some ⟨model.queue.capacity, target⟩ := by
    rw [growthTo_of_ne (by omega), hbefore, hafter]
  have hlogged : ((model.step (.produce call script)).1.log.filter fun event =>
      event.level = .debug) = [.grew ⟨model.queue.capacity, target⟩] := by
    rw [hgrowing.log_eq, hraises.events]
    rfl
  refine ⟨⟨?_, ?_, ?_, ?_, ?_, ?_⟩, ?_, ?_, ?_⟩
  · omega
  · rw [hlogged, hsome]
    rfl
  · intro hmetered
    rw [h.ring.metered_eq] at hmetered
    rw [hsome, hnext.ring.metrics_eq, h.ring.metrics_eq, hraises.steady.growths_metrics]
    simp only [Queue.metrics, Queue.record, hmetered, if_true]
    rfl
  · rw [hsome]
    exact hraises.growth
  · exact fun entry hentry made hmade =>
      (hgrowing.inside (.produce call script) entry hentry made hmade).growth
  · rintro growth hgrowth
    cases hsome.symm.trans hgrowth
    rcases Step.reserved_of_demands hdemands with ⟨reply, nested, hreply, hreserved⟩
    refine ⟨call, script, reply, nested, rfl, hreply, ?_, ?_⟩
    · rw [hbefore, h.ring.length_eq, htotal]
      exact hraises.short
    · have hreturned := hraises.growth
      rw [hreply] at hreturned
      rcases Bool.or_eq_true_iff.1 hreserved with hback | hbroken
      · rcases Option.isSome_iff_exists.1 hback with ⟨result, hresult⟩
        rw [hreturned result hresult] at hresult
        exact .inl hresult
      · exact .inr hbroken
  · rw [hnext.ring.metered_eq, h.ring.metered_eq, hraises.steady.metered_eq, Queue.metered_record]
  · rw [hbefore, hafter, h.ring.length_eq, hdemands]
    exact Capacity.isGreatest_of_short hraises.short hraises.least
  · rw [StepAnswer.growths_eq, hlogged, hbefore, hafter]
    have hdouble := Capacity.double_le hgrowing.valid hraises.short hraises.least
    exact @Growth.Chain.step ⟨model.queue.capacity, target⟩ [] target hdouble (.done target)

theorem Growing.step (h : session.Growing) (step : Step α) :
    ∃ answer next, session.step step = .ok (answer, next) ∧ next.Growing ∧
      session.Advances step answer next := by
  rcases h with ⟨model, hmodel, hface⟩
  have hgrowing := hmodel.growing hface
  have hadmits : session.Admits step := by
    cases step with
    | regrow capacity =>
        intro hbare
        cases (hmodel.face_eq.trans hface).symm.trans hbare
    | produce | consume | setLimit | dropProducer | dropConsumer | contend => trivial
  rcases hmodel.step hadmits with ⟨next, hstep, hnext⟩
  refine ⟨(model.step step).1, next, hstep, ⟨_, hnext, ?_⟩, ?_⟩
  · rcases hgrowing.step_cases step with ⟨hkeeps, hsame⟩ |
      ⟨call, script, target, rfl, hraises, -, htarget⟩
    · rw [hsame, hkeeps.steady.capacity_eq, hface]
    · rw [htarget, hraises.steady.capacity_eq, Queue.capacity_record]
  · rcases hgrowing.step_cases step with ⟨hkeeps, -⟩ |
      ⟨call, script, target, rfl, hraises, hdemands, -⟩
    · exact hmodel.advances_of_keeps hgrowing hnext hkeeps
    · exact hmodel.advances_of_raises hgrowing hnext rfl hraises hdemands

/-! ## Runs -/

/-- Over a run the capacity is the greatest of what it was and what all the demands come to. -/
theorem Growing.run (h : session.Growing) (steps : List (Step α)) :
    ∃ answers last, session.run steps = .ok (answers, last) ∧ last.Growing ∧
      IsGreatest (Capacity.candidates session.channel.ring.capacity (session.demandsAll steps))
        last.channel.ring.capacity ∧
      Growth.Chain session.channel.ring.capacity (answers.flatMap StepAnswer.growths)
        last.channel.ring.capacity ∧
      (session.channel.ring.config.metered = true →
        last.channel.ring.metrics.growths =
          session.channel.ring.metrics.growths +
            UInt64.ofNat (answers.flatMap StepAnswer.growths).length) := by
  induction steps generalizing session with
  | nil =>
      refine ⟨[], session, rfl, h, ?_, .done _, ?_⟩
      · rcases h with ⟨model, hmodel, hface⟩
        rw [hmodel.ring.capacity_eq]
        exact Capacity.isGreatest_of_enough hmodel.ring.capacity_valid (List.forall_mem_nil _)
      · intro _
        exact (UInt64.add_zero _).symm
  | cons step rest ih =>
      rcases h.step step with ⟨answer, next, hstep, hnext, hadvances⟩
      rcases ih hnext with ⟨answers, last, hrun, hlast, hgreatest, hchain, hcount⟩
      refine ⟨answer :: answers, last, ?_, hlast, ?_, ?_, ?_⟩
      · simp only [Session.run, hstep, hrun, ok_bind]
      · rw [demandsAll, hstep]
        exact Capacity.isGreatest_append hadvances.greatest hgreatest
      · exact hadvances.chain.append hchain
      · intro hmetered
        have hgrowths : answer.growths.length = (session.growthTo next).toList.length := by
          rw [StepAnswer.growths_eq, hadvances.tells.logged]
          cases session.growthTo next <;> rfl
        rw [hcount (hadvances.metered_eq.trans hmetered), hadvances.tells.counted hmetered,
          List.flatMap_cons, List.length_append, hgrowths, UInt64.ofNat_add, UInt64.add_assoc]

/-- However a growable ring was used, the capacity that it has and shows is the greatest of the one
that it started with and the least powers of two that are enough for what its producer calls had
room for. The growths lead there by doublings at least, and they are all that is counted. Each step
that may follow tells what it does to the capacity. -/
theorem run_capacity {limit capacity : Nat} {config : Config} {cursor : UInt64}
    {ring : RingBuffer α} (hring : RingBuffer.create limit capacity config cursor = .ok ring)
    (bytes : Nat) (steps : List (Step α)) :
    ∃ answers last, (around .growable bytes ring).run steps = .ok (answers, last) ∧
      last.channel.face = .growable last.channel.ring.capacity ∧
      last.channel.ring.store.size = last.channel.ring.capacity ∧
      IsGreatest
        (Capacity.candidates capacity ((around .growable bytes ring).demandsAll steps))
        last.channel.ring.capacity ∧
      Growth.Chain capacity (answers.flatMap StepAnswer.growths) last.channel.ring.capacity ∧
      (answers.flatMap StepAnswer.growths).length ≤ 63 ∧
      (config.metered = true → last.channel.ring.metrics.growths.toNat =
        (answers.flatMap StepAnswer.growths).length) ∧
      ∀ step, ∃ answer next, last.step step = .ok (answer, next) ∧
        last.Tells step answer next := by
  have hstart := holds_around hring .growable bytes
  have hcapacity : (around .growable bytes ring).channel.ring.capacity = capacity :=
    hstart.ring.capacity_eq
  have hpos : 0 < capacity := by
    rw [← hcapacity]
    exact Nat.succ_pos _
  rcases Growing.run ⟨_, hstart, rfl⟩ steps with
    ⟨answers, last, hrun, hlast, hgreatest, hchain, hcount⟩
  rw [hcapacity] at hgreatest hchain
  rcases hlast with ⟨model, hmodel, hface⟩
  have hfew : (answers.flatMap StepAnswer.growths).length ≤ 63 := by
    apply hchain.length_le hpos
    rw [hmodel.ring.capacity_eq]
    exact hmodel.ring.capacity_valid
  refine ⟨answers, last, hrun, ?_, ?_, hgreatest, hchain, hfew, ?_, ?_⟩
  · rw [hmodel.face_eq, hface, hmodel.ring.capacity_eq]
  · exact hmodel.ring.invariant.size_eq
  · intro hmetered
    have hmetered' : (around .growable bytes ring).channel.ring.config.metered = true :=
      hstart.ring.metered_eq.trans hmetered
    have hzero : (around .growable bytes ring).channel.ring.metrics.growths = 0 := by
      rw [hstart.ring.metrics_eq]
      exact congrArg Counters.growths (ite_self Counters.zero)
    rw [hcount hmetered', hzero, UInt64.zero_add, UInt64.toNat_ofNat']
    exact Nat.mod_eq_of_lt (by omega)
  · intro step
    rcases Growing.step ⟨model, hmodel, hface⟩ step with ⟨answer, next, hstep, -, hadvances⟩
    exact ⟨answer, next, hstep, hadvances.tells⟩

/-- A chunked write of seven items panics after it has made room for nine. A drain whose handler
inserts needs room for six, and a batch that is too long for the memory needs nothing. -/
theorem run_capacity_jumps :
    let ring : RingBuffer UInt64 := ⟨0, 0, 1, .empty 2, .counting, .zero⟩
    let steps : List (Step UInt64) :=
      [.produce (.writeBatch (.ofArray #[1, 2])) [],
        .produce (.writeChunked (.replicate 7 3) 3 (some 0)) [],
        .consume (.drain 1 none) [[.insert 4]],
        .produce (.writeBatch (.replicate 100 5)) []]
    RingBuffer.create 128 2 .counting 0 = .ok ring ∧
      (around .growable 128 ring).demandsAll steps = [2, 9, 6] ∧
      ∃ answers last, (around .growable 128 ring).run steps = .ok (answers, last) ∧
        IsGreatest (Capacity.candidates 2 [2, 9, 6]) last.channel.ring.capacity ∧
        Growth.Chain 2 (answers.flatMap StepAnswer.growths) last.channel.ring.capacity := by
  intro ring steps
  have hring : RingBuffer.create 128 2 .counting 0 = .ok ring := rfl
  have hdemands : (around .growable 128 ring).demandsAll steps = [2, 9, 6] := by
    decide +kernel
  rcases run_capacity hring 128 steps with ⟨answers, last, hrun, -, -, hgreatest, hchain, -⟩
  rw [hdemands] at hgreatest
  exact ⟨hring, hdemands, answers, last, hrun, hgreatest, hchain⟩

end Session

end RingChannel
