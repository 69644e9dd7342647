import RingChannel.Proofs.Ownership.Destroyed
import RingChannel.Proofs.Refinement.Session

/-!
# Every item has one owner over a whole run

At every step boundary each item that was given to a channel, or made for it, is unread in the
ring, back with the caller, destroyed, or left behind undestroyed, and in one of these places only.
Items are left behind only where a destructor panics in the last release of the ring.
-/

namespace RingChannel

variable {α : Type} [Item α]

namespace Step

def isLast (producing consuming : Bool) : Step α → Bool
  | .dropProducer => producing && !consuming
  | .dropConsumer => consuming && !producing
  | _ => false

/-- What passes between the channel and its caller in a step, by the answer to it. -/
def flow (step : Step α) (answer : StepAnswer α) : Flow α :=
  match step, answer.reply with
  | .produce call script, .called reply nested =>
      call.flow reply answer.destroyed ++ .total (nested.map (entryFlow ConsumerCall.flow script))
  | .consume call script, .called reply nested =>
      call.flow reply answer.destroyed ++ .total (nested.map (entryFlow ProducerCall.flow script))
  | .contend item _, .contended _ items (some (.ok _)) => ⟨[item], items, answer.destroyed⟩
  | .contend item _, .contended _ items (some (.error error)) =>
      ⟨[item], items ++ [error.item], answer.destroyed⟩
  | .contend _ _, .contended _ items none => ⟨[], items, answer.destroyed⟩
  | _, _ => ⟨[], [], answer.destroyed⟩

/-- The calls made inside the call of a step destroy only what they may. -/
def Fair (step : Step α) (answer : StepAnswer α) : Prop :=
  match step, answer.reply with
  | .produce _ script, .called _ nested =>
      ∀ entry ∈ nested, ∀ made ∈ entryCalls script entry, made.1.Destroys made.2
  | .consume _ script, .called _ nested =>
      ∀ entry ∈ nested, ∀ made ∈ entryCalls script entry, made.1.Destroys made.2
  | _, _ => True

end Step

namespace Session

def unread (session : Session α) : List α :=
  if session.producing || session.consuming then session.channel.ring.contents else []

def ruins (session : Session α) (step : Step α) : List α :=
  match step with
  | .consume call _ => if session.consuming then call.ruins session.unread else []
  | step =>
      if step.isLast session.producing session.consuming then (demolish session.unread).2 else []

/-- The items behind the first one whose destructor panics, when the ring goes in a step. -/
def abandons (session : Session α) (step : Step α) : List α :=
  if step.isLast session.producing session.consuming then
    session.unread.drop (session.unread.findIdx Item.explodes + 1)
  else []

def abandonsAll (session : Session α) : List (Step α) → List α
  | [] => []
  | step :: rest =>
      session.abandons step ++
        match session.step step with
        | .ok (_, next) => next.abandonsAll rest
        | .error _ => []

end Session

def QueueSession.unread (session : QueueSession α) : List α :=
  if session.producing || session.consuming then session.queue.items else []

omit [Item α] in
theorem Session.Holds.unread_eq {session : Session α} {model : QueueSession α}
    (h : session.Holds model) : session.unread = model.unread := by
  unfold Session.unread QueueSession.unread
  rw [h.producing_eq, h.consuming_eq, h.ring.contents_eq]

namespace Queue

theorem regrow_balances (limit capacity : Nat) (queue : Queue α) :
    Flow.none.Balances queue.items ((queue.regrow limit capacity).2.items ++ []) := by
  have hitems : (queue.regrow limit capacity).2.items = queue.items := by
    unfold regrow
    split
    · exact items_record _ _
    · rfl
  rw [List.append_nil, hitems]
  exact Flow.Balances.none _

theorem produce_settled {entry : Nat × List (Answer α) → Flow α}
    {fair : Nat × List (Answer α) → Prop} {meanwhile : Meanwhile α}
    (h : meanwhile.Accounts entry fair) (limit : Nat) (call : ProducerCall α) (face : Face)
    (queue : Queue α) :
    Settled entry fair
      (call.flow (queue.produce limit meanwhile call face).1.reply
        (queue.produce limit meanwhile call face).1.destroyed)
      (queue.produce limit meanwhile call face).1.nested queue.items
      (queue.produce limit meanwhile call face).2.2.items := by
  cases face with
  | bare => exact writeBounded_settled h .bare call queue
  | fixed => exact writeBounded_settled h .fixed call queue
  | growable shown => exact writeUnbounded_settled h limit shown call queue

end Queue

namespace QueueSession

def abandons (session : QueueSession α) (step : Step α) : List α :=
  if step.isLast session.producing session.consuming then
    session.unread.drop (session.unread.findIdx Item.explodes + 1)
  else []

/-- The last release destroys the items up to the first one that panics, and abandons the rest. -/
theorem demolish_balances (items : List α) :
    (Flow.mk [] [] (demolish items).2).Balances items
      (items.drop (items.findIdx Item.explodes + 1)) := by
  have hlength : items.drop (demolish items).2.length =
      items.drop (items.findIdx Item.explodes + 1) := by
    rw [demolish, List.length_take, ← List.drop_eq_drop_min]
  have hbalances := Queue.balances_destroyed (prefix_demolish items)
  rw [hlength] at hbalances
  exact hbalances

omit [Item α] in
theorem contend_balances (item : α) (max : Nat) (queue : Queue α) (status : Option Status) :
    ((Step.contend item max).flow ⟨(queue.contend item max).1, status, [], []⟩).Balances
      queue.items (queue.contend item max).2.items := by
  unfold Queue.contend
  simp only
  split
  · exact Flow.Balances.none _
  · have htaken := Queue.balances_returned (List.take_prefix (min max queue.items.length)
      queue.items)
    have hgiven := Queue.write_balances (queue.items.drop (min max queue.items.length)) [item] 1
    rw [List.length_take, Nat.min_eq_left (Nat.min_le_right _ _)] at htaken
    have hbalances := htaken.append hgiven
    simp only [Queue.items_append, Queue.items_remove]
    simpa [Flow.Balances, Step.flow] using hbalances

theorem step_balances (session : QueueSession α) (step : Step α) :
    step.Fair (session.step step).1 ∧
      (step.flow (session.step step).1).Balances session.unread
        ((session.step step).2.unread ++ session.abandons step) := by
  obtain ⟨face, queue, limit, producing, consuming⟩ := session
  have hidle : ∀ (flow : Flow α) (items : List α), flow = Flow.none →
      True ∧ flow.Balances items (items ++ []) := by
    rintro flow items rfl
    rw [List.append_nil]
    exact ⟨trivial, Flow.Balances.none items⟩
  cases step with
  | produce call script =>
      cases producing with
      | false => exact hidle _ _ rfl
      | true =>
          have haccounts := Queue.Meanwhile.accounts_ofScript Queue.consumeInside_balances
            Queue.consumeInside_destroys consuming script
          obtain ⟨hfair, hbalances⟩ := Queue.produce_settled haccounts limit call face queue
          rw [← List.append_nil (Queue.produce _ _ _ _ _).2.2.items] at hbalances
          exact ⟨hfair, hbalances⟩
  | consume call script =>
      cases consuming with
      | false => exact hidle _ _ rfl
      | true =>
          have haccounts := Queue.Meanwhile.accounts_ofScript (Queue.produceInside_balances limit)
            (Queue.produceInside_destroys limit) producing script
          obtain ⟨hfair, hbalances⟩ := Queue.consume_settled haccounts
            (Queue.items_prefix_produceInside limit producing script) face call queue
          rw [← List.append_nil (Queue.consume _ _ _ _).2.items] at hbalances
          cases producing <;> exact ⟨hfair, hbalances⟩
  | setLimit bytes => exact hidle _ _ rfl
  | dropProducer =>
      cases producing <;> cases consuming
      · exact hidle _ _ rfl
      · exact hidle _ _ rfl
      · exact ⟨trivial, demolish_balances queue.items⟩
      · exact hidle _ _ rfl
  | dropConsumer =>
      cases producing <;> cases consuming
      · exact hidle _ _ rfl
      · exact ⟨trivial, demolish_balances queue.items⟩
      · exact hidle _ _ rfl
      · exact hidle _ _ rfl
  | regrow capacity =>
      cases face with
      | fixed | growable shown => exact hidle _ _ rfl
      | bare =>
          have hbalances := queue.regrow_balances limit capacity
          cases producing <;> cases consuming <;>
            first | exact hidle _ _ rfl | exact ⟨trivial, hbalances⟩
  | contend item max =>
      cases face with
      | bare | fixed => exact hidle _ _ rfl
      | growable shown =>
          have hbalances := contend_balances item max queue
          cases producing with
          | false => exact hidle _ _ rfl
          | true =>
              cases consuming with
              | false => exact hidle _ _ rfl
              | true =>
                  have hstep := hbalances
                    (some ((queue.contend item max).2.observe (.growable shown) .producer).status)
                  rw [← List.append_nil (queue.contend item max).2.items] at hstep
                  exact ⟨trivial, hstep⟩

theorem unread_eq_nil_of_isLast {session : QueueSession α} {step : Step α}
    (h : step.isLast session.producing session.consuming = true) :
    (session.step step).2.unread = [] := by
  obtain ⟨face, queue, limit, producing, consuming⟩ := session
  cases step with
  | dropProducer => cases producing <;> cases consuming <;> first | rfl | cases h
  | dropConsumer => cases producing <;> cases consuming <;> first | rfl | cases h
  | produce | consume | setLimit | regrow | contend => cases h

theorem step_destroyed (session : QueueSession α) (step : Step α) :
    (session.step step).1.destroyed =
      match step with
      | .consume call _ => if session.consuming then call.ruins session.unread else []
      | step =>
          if step.isLast session.producing session.consuming then (demolish session.unread).2
          else [] := by
  obtain ⟨face, queue, limit, producing, consuming⟩ := session
  cases step with
  | produce call script =>
      cases producing with
      | false => rfl
      | true => exact Queue.produce_destroyed _ limit call face queue
  | consume call script =>
      cases consuming with
      | false => rfl
      | true =>
          have hruins := Queue.consume_destroyed
            (.ofScript producing (Queue.produceInside limit) script) face call queue
          cases producing <;> exact hruins
  | setLimit bytes => rfl
  | dropProducer => cases producing <;> cases consuming <;> rfl
  | dropConsumer => cases producing <;> cases consuming <;> rfl
  | regrow capacity => cases face <;> cases producing <;> cases consuming <;> rfl
  | contend item max => cases face <;> cases producing <;> cases consuming <;> rfl

end QueueSession

namespace Session

theorem Holds.abandons_eq {session : Session α} {model : QueueSession α} (h : session.Holds model)
    (step : Step α) : session.abandons step = model.abandons step := by
  unfold Session.abandons QueueSession.abandons
  rw [h.producing_eq, h.consuming_eq, h.unread_eq]

theorem Holds.step_destroyed {session : Session α} {model : QueueSession α}
    (h : session.Holds model) (step : Step α) :
    (model.step step).1.destroyed = session.ruins step := by
  unfold ruins
  rw [QueueSession.step_destroyed, h.producing_eq, h.consuming_eq, h.unread_eq]

theorem Holds.run_balances {session : Session α} {model : QueueSession α}
    (h : session.Holds model) {steps : List (Step α)} (hsteps : session.AdmitsAll steps) :
    ∃ answers last, session.run steps = .ok (answers, last) ∧
      last.Holds (model.run steps).2 ∧
      (Flow.total (List.zipWith Step.flow steps answers)).Balances session.unread
        (last.unread ++ session.abandonsAll steps) := by
  induction steps generalizing session model with
  | nil =>
      refine ⟨[], session, rfl, h, ?_⟩
      rw [abandonsAll, List.append_nil]
      exact Flow.Balances.none _
  | cons step rest ih =>
      obtain ⟨hstep, hrest⟩ := hsteps
      obtain ⟨next, hrun, hnext⟩ := h.step hstep
      obtain ⟨answers, last, hothers, hlast, hbalances'⟩ := ih hnext (hrest _ next hrun)
      have hbalances := (model.step_balances step).2
      rw [← hnext.unread_eq, ← h.unread_eq, ← h.abandons_eq] at hbalances
      refine ⟨(model.step step).1 :: answers, last, ?_, hlast, ?_⟩
      · unfold Session.run
        simp only [hrun, hothers, ok_bind]
      · have hall := hbalances.append (hbalances'.frame (session.abandons step))
        rw [List.zipWith_cons_cons, Flow.total_cons, abandonsAll, hrun]
        refine hall.trans_perm ?_
        rw [List.append_assoc]
        exact List.perm_append_comm.append_left last.unread

/-- After every run from a new ring each item that was given to the channel or made for it is in
one place, and every further step destroys what it is meant to destroy and nothing else. -/
theorem run_owned {limit capacity : Nat} {config : Config} {cursor : UInt64}
    {ring : RingBuffer α} (hring : RingBuffer.create limit capacity config cursor = .ok ring)
    (kind : Kind) (bytes : Nat) {steps : List (Step α)}
    (hsteps : (around kind bytes ring).AdmitsAll steps) :
    ∃ answers last, (around kind bytes ring).run steps = .ok (answers, last) ∧
      (Flow.total (List.zipWith Step.flow steps answers)).Balances []
        (last.unread ++ (around kind bytes ring).abandonsAll steps) ∧
      ∀ step, last.Admits step → ∃ answer next, last.step step = .ok (answer, next) ∧
        answer.destroyed = last.ruins step ∧ step.Fair answer ∧
        (step.isLast last.producing last.consuming = true → next.unread = []) := by
  have hholds := holds_around hring kind bytes
  obtain ⟨answers, last, hrun, hlast, hbalances⟩ := hholds.run_balances hsteps
  rw [hholds.unread_eq] at hbalances
  refine ⟨answers, last, hrun, hbalances, ?_⟩
  intro step hstep
  obtain ⟨next, hnext, hheld⟩ := hlast.step hstep
  refine ⟨_, next, hnext, hlast.step_destroyed step, (QueueSession.step_balances _ step).1, ?_⟩
  intro hgone
  rw [hheld.unread_eq]
  rw [hlast.producing_eq, hlast.consuming_eq] at hgone
  exact QueueSession.unread_eq_nil_of_isLast hgone

/-- The ring goes with a bomb among its items, and what is behind the bomb is left behind. -/
theorem run_owned_bomb :
    let ring : RingBuffer Tracked :=
      ⟨18446744073709551615, 18446744073709551615, 3, .empty 4, .counting, .zero⟩
    let steps : List (Step Tracked) :=
      [.produce (.writeBatch (.ofArray #[⟨1, false⟩, ⟨2, true⟩, ⟨3, false⟩])) [],
        .consume (.removeInto ⟨0, false⟩) [], .produce (.insert ⟨4, false⟩) [], .dropProducer,
        .dropConsumer]
    RingBuffer.create 64 4 .counting 18446744073709551615 = .ok ring ∧
      (around .fixed 64 ring).AdmitsAll steps ∧
      ∃ answers last, (around .fixed 64 ring).run steps = .ok (answers, last) ∧
        (Flow.total (List.zipWith Step.flow steps answers)).Balances []
          (last.unread ++ [⟨3, false⟩, ⟨4, false⟩]) := by
  intro ring steps
  have hring : RingBuffer.create 64 4 .counting 18446744073709551615 = .ok ring := rfl
  have hsteps : (around .fixed 64 ring).AdmitsAll steps :=
    admitsAll_of_forall (by simp [steps, Admits]) _
  have hbehind : (around .fixed 64 ring).abandonsAll steps = [⟨3, false⟩, ⟨4, false⟩] := by
    decide +kernel
  obtain ⟨answers, last, hrun, hbalances, -⟩ := run_owned hring .fixed 64 hsteps
  rw [hbehind] at hbalances
  exact ⟨hring, hsteps, answers, last, hrun, hbalances⟩

end Session

end RingChannel
