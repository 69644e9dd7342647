import RingChannel.Proofs.Queue.InTurn
import RingChannel.Proofs.Queue.Inside
import RingChannel.Proofs.Reachable

/-!
# A drain takes place after the calls made inside it

While a drain hands over items, its caller may make calls of the producer. These calls cannot tell
that the drain has begun: they are answered as they would be one after another on a ring that is not
being drained, and in the end the ring is the one that they and a removal of the drained items
afterwards would leave.
-/

namespace RingChannel

variable {α : Type}

/-! ## Rings that agree -/

/-- A row fills all of its store. -/
theorem Store.Row.unique {a b : Store α} {mask start : UInt64} {cells : Nat → Option α}
    (ha : a.Row mask start cells) (hb : b.Row mask start cells) : a = b := by
  apply Store.ext
  · rw [ha.size_eq, hb.size_eq]
  · intro index
    by_cases hout : mask.toNat < index
    · rw [ha.get?_outside index hout, hb.get?_outside index hout]
    · rcases Store.exists_slot_eq ha.valid start (Nat.not_lt.1 hout) with ⟨i, hi, rfl⟩
      rw [ha.get?_slot i hi, hb.get?_slot i hi]

namespace RingBuffer

structure Agrees (a b : RingBuffer α) : Prop where
  head_eq : a.head = b.head
  tail_eq : a.tail = b.tail
  mask_eq : a.mask = b.mask
  store_eq : a.store = b.store
  metered_eq : a.config.metered = b.config.metered
  counters_eq : a.counters = b.counters

/-- A queue and the cursor of its oldest item say all that there is to say about a ring. -/
theorem Holds.agrees {a b : RingBuffer α} {gone : Nat} {queue : Queue α}
    (ha : a.Holds gone queue) (hb : b.Holds gone queue) (htail : a.tail = b.tail) :
    a.Agrees b := by
  have hmask : a.mask = b.mask := hb.mask_congr ha rfl
  have hrow := hb.row
  rw [← htail, ← hmask] at hrow
  refine ⟨?_, htail, hmask, ha.row.unique hrow, ?_, ?_⟩
  · rw [ha.head_eq, hb.head_eq, htail]
  · rw [ha.metered_eq, hb.metered_eq]
  · rw [ha.counters_eq, hb.counters_eq]

/-- So do a queue and the cursor behind its youngest item. -/
theorem Holds.agrees_of_head {a b : RingBuffer α} {gone : Nat} {queue : Queue α}
    (ha : a.Holds gone queue) (hb : b.Holds gone queue) (hhead : a.head = b.head) :
    a.Agrees b := by
  apply ha.agrees hb
  rw [ha.head_eq, hb.head_eq] at hhead
  exact (UInt64.add_left_inj _).1 hhead

/-! ## Removal -/

/-- Take the oldest `count` items out and hand their slots back, uncounted. -/
def takeOldest (count : Nat) (ring : RingBuffer α) : Checked (List α × RingBuffer α) := do
  let (items, taken) ← ring.takeRun ring.tail count
  let released ← taken.publishTail ring.tail count
  .ok (items, released)

/-- A drain that comes to its end is counted, one that is broken off is not. -/
def recordDrain (outcome : Outcome Nat) (ring : RingBuffer α) : RingBuffer α :=
  match outcome with
  | .returned count => ring.record (.removed count)
  | .panicked _ => ring

@[simp] theorem tail_recordDrain (outcome : Outcome Nat) (ring : RingBuffer α) :
    (ring.recordDrain outcome).tail = ring.tail := by
  cases outcome with
  | returned count => exact tail_record _ ring
  | panicked _ => rfl

namespace Holds

variable {ring : RingBuffer α} {queue : Queue α}

theorem recordDrain (h : ring.Holds 0 queue) (outcome : Outcome Nat) :
    (ring.recordDrain outcome).Holds 0 (queue.recordDrain outcome) := by
  cases outcome with
  | returned count => exact h.record _
  | panicked _ => exact h

theorem takeOldest (h : ring.Holds 0 queue) {count : Nat} (hle : count ≤ queue.items.length) :
    ∃ released, ring.takeOldest count = .ok (queue.items.take count, released) ∧
      released.Holds 0 (queue.behead count) ∧
      released.tail = ring.tail + UInt64.ofNat count := by
  rcases h.takeFront hle with ⟨taken, released, htake, hback, hreleased, -⟩
  refine ⟨released, ?_, hreleased, tail_of_publishTail hback⟩
  simp only [RingBuffer.takeOldest, htake, hback, ok_bind]

/-- A drain with a handler that makes calls leaves the ring of a drain in which they are made in
turn first. -/
theorem drain_inTurn {interlude : Interlude α} {meanwhile : Queue.Meanwhile α}
    (h : ring.Holds 0 queue)
    (hfollows : ∀ gone, Follows (fun ring => (ring.tail, ())) gone interlude meanwhile)
    (hfront : ∀ face invocation queue,
      queue.items <+: (meanwhile face invocation queue).2.items)
    (face : Face) (panicAt : Option Nat) (limit : Nat) :
    let ending := drainEnd panicAt (min limit queue.items.length)
    let turn := meanwhile.inTurn face ending.2 0 queue
    ∃ next, ring.drain limit (interlude.callback face panicAt) .empty =
        .ok (ending.1, Journal.empty.after (queue.items.take ending.2) turn.1, next) ∧
      next.Holds 0 ((turn.2.behead ending.2).recordDrain ending.1) ∧
      next.tail = ring.tail + UInt64.ofNat ending.2 := by
  intro ending turn
  have hreaction : ∀ (gone : Nat) (item : α) (memory : Journal α α) (queue : Queue α),
      Tracks (fun ring => (ring.tail, ())) gone (interlude.callback face panicAt item memory) queue
        (meanwhile.callback face panicAt item memory queue) :=
    fun gone item memory queue => (hfollows gone).callback face panicAt item memory queue
  rcases drain_moves hreaction (fun _ memory queue => hfront face memory.told.size queue)
    (fun _ _ _ => rfl) limit .empty h with ⟨next, hrun, hnext, -, htail⟩
  rw [Queue.drain_inTurn] at hrun hnext
  rw [Queue.drainRun_take] at htail
  exact ⟨next, hrun, hnext, htail⟩

end Holds

end RingBuffer

/-! ## Calls as steps of their own -/

variable [Item α]

def Answer.asStep (answer : Answer α) : StepAnswer α :=
  ⟨.called answer.reply [], some answer.status, answer.destroyed, answer.events⟩

namespace Session

def withRing (session : Session α) (ring : RingBuffer α) : Session α :=
  { session with channel := ⟨session.channel.face, ring⟩ }

/-- The producer is there to make these calls one after another, and a ring that could grow has the
room for each of them. -/
def Serves (session : Session α) : List (ProducerCall α) → Prop
  | [] => True
  | call :: rest =>
      session.producing = true ∧
        (∀ shown, session.channel.face = .growable shown →
          session.channel.ring.length + call.needed ≤ session.channel.ring.capacity) ∧
        ∀ answer next, session.step (.produce call []) = .ok (answer, next) → next.Serves rest

/-- The producer makes the calls of each list in turn, as steps of their own. The answers to a list
come with its number, counted from `invocation`; a list without calls has none. -/
def inTurn (session : Session α) :
    (invocation : Nat) → List (List (ProducerCall α)) →
      Checked (List (Nat × List (StepAnswer α)) × Session α)
  | _, [] => .ok ([], session)
  | invocation, [] :: rest => session.inTurn (invocation + 1) rest
  | invocation, (call :: calls) :: rest => do
      let (answers, next) ← session.run ((call :: calls).map (.produce · []))
      let (others, last) ← next.inTurn (invocation + 1) rest
      .ok ((invocation, answers) :: others, last)

end Session

theorem QueueSession.consumerMeanwhile_of_nil (session : QueueSession α)
    {script : List (List (ProducerCall α))} {invocation : Nat}
    (h : script[invocation]?.getD [] = []) (face : Face) (queue : Queue α) :
    session.consumerMeanwhile script face invocation queue = (none, queue) := by
  unfold consumerMeanwhile Queue.Meanwhile.ofScript
  split
  · rfl
  · rfl
  · rename_i call rest hlist
    rw [hlist] at h
    cases h

theorem QueueSession.items_prefix_inTurn (session : QueueSession α)
    (script : List (List (ProducerCall α))) (face : Face) (count invocation : Nat)
    (queue : Queue α) :
    queue.items <+:
      ((session.consumerMeanwhile script).inTurn face count invocation queue).2.items :=
  Queue.chains_leading.inTurn
    (Queue.items_prefix_produceInside session.limit session.producing script) face count invocation
    queue

theorem QueueSession.steady_inTurn (session : QueueSession α)
    (script : List (List (ProducerCall α))) (face : Face) (count invocation : Nat)
    (queue : Queue α) :
    queue.Steady ((session.consumerMeanwhile script).inTurn face count invocation queue).2 :=
  Queue.chains_steady.inTurn
    (Queue.chains_steady.ofScript
      (Queue.chains_steady.produceInside Queue.steady_write session.limit) session.producing script)
    face count invocation queue

theorem Queue.face_produce_of_room {queue : Queue α} {face : Face} {call : ProducerCall α}
    (limit : Nat) (meanwhile : Queue.Meanwhile α)
    (hroom : ∀ shown, face = .growable shown → call.needed ≤ queue.free) :
    (queue.produce limit meanwhile call face).2.1 = face := by
  cases face with
  | bare | fixed => rfl
  | growable shown =>
      exact congrArg Face.growable (shown_of_room limit meanwhile shown (hroom shown rfl))

omit [Item α] in
theorem RingBuffer.Holds.wouldBlock_of_room {ring : RingBuffer α} {gone : Nat} {queue : Queue α}
    (h : ring.Holds gone queue) {face : Face} {call : ProducerCall α}
    (hroom : ∀ shown, face = .growable shown → call.needed ≤ queue.free) :
    Channel.wouldBlock face call ring = .ok false := by
  cases face with
  | bare | fixed => rfl
  | growable shown =>
      have hfit : ¬ (queue.observe (.growable shown) .producer).free < call.needed :=
        Nat.not_lt.2 (hroom shown rfl)
      unfold Channel.wouldBlock
      simp only [h.observe, ok_bind]
      exact congrArg Except.ok (decide_eq_false hfit)

namespace Session

namespace Holds

variable {session : Session α} {model : QueueSession α}

omit [Item α] in
theorem withRing (h : session.Holds model) {ring : RingBuffer α} {queue : Queue α}
    (hring : ring.Holds 0 queue) :
    (session.withRing ring).Holds { model with queue := queue } :=
  ⟨h.face_eq, hring, h.limit_eq, h.producing_eq, h.consuming_eq⟩

/-- A call that needs no growth is answered inside a drain as it is answered anywhere. -/
theorem step_inside (h : session.Holds model) (hproducing : session.producing = true)
    {call : ProducerCall α}
    (hroom : ∀ shown, session.channel.face = .growable shown →
      session.channel.ring.length + call.needed ≤ session.channel.ring.capacity) :
    ∃ next, session.step (.produce call []) =
        .ok ((model.queue.produceInside model.limit model.face call).1.asStep,
          session.withRing next) ∧
      (session.withRing next).Holds
        { model with queue := (model.queue.produceInside model.limit model.face call).2 } ∧
      next.tail = session.channel.ring.tail := by
  rcases session with ⟨⟨face, ring⟩, limit, producing, consuming⟩
  rcases model with ⟨_, queue, _, _, _⟩
  cases h.face_eq
  cases h.limit_eq
  cases hproducing
  have hfree : ∀ shown, face = .growable shown → call.needed ≤ queue.free := by
    intro shown hface
    have hlength : ring.length = queue.items.length := h.ring.length_eq
    have hcapacity : ring.capacity = queue.capacity := h.ring.capacity_eq
    have hfit : ring.length + call.needed ≤ ring.capacity := hroom shown hface
    unfold Queue.free
    omega
  rcases h.produce Follows.quiet (fun _ _ queue => Nat.le_refl queue.free) call with
    ⟨⟨_, ring'⟩, hrun, hface, hring⟩
  cases hface.trans (Queue.face_produce_of_room limit .quiet hfree)
  have hrun : Channel.produce limit .quiet call ⟨face, ring⟩ =
      .ok ((queue.produce limit .quiet call face).1, ⟨face, ring'⟩) := hrun
  have hnested := Queue.nested_produce_quiet limit call face queue
  have hobserve := hring.observe face .producer
  -- inside the drain the same call is made, and the same state is looked at
  rcases h.ring.produceInside limit face call with ⟨next, hinside, hnext, htail⟩
  simp only [Channel.produceInside, h.ring.wouldBlock_of_room hfree, hrun, Channel.observe,
    hobserve, ok_bind, Bool.false_eq_true, if_false] at hinside
  rcases Prod.mk.inj (Except.ok.inj hinside) with ⟨hanswer, rfl⟩
  refine ⟨ring', ?_, h.withRing hnext, htail⟩
  rw [← hanswer]
  have hquiet : ∀ session : Session α, session.producerInterlude [] = .quiet := fun _ => rfl
  simp only [Session.step, Session.take, if_true, hquiet, hrun, ok_bind, Session.called,
    Session.status, Bool.true_or, Channel.observe, hobserve, hnested]
  rfl

theorem serves_cons (h : session.Holds model) {call : ProducerCall α} {rest : List (ProducerCall α)}
    (hproducing : model.producing = true)
    (hroom : model.queue.items.length + call.needed ≤ model.queue.capacity)
    (hrest : ∀ next : Session α, next.Holds (model.step (.produce call [])).2 → next.Serves rest) :
    session.Serves (call :: rest) := by
  refine ⟨h.producing_eq.trans hproducing, ?_, ?_⟩
  · intro shown _
    rw [h.ring.length_eq, h.ring.capacity_eq]
    exact hroom
  · intro answer next hstep
    have hadmits : session.Admits (.produce call []) := trivial
    rcases h.step hadmits with ⟨next', hrun, hnext⟩
    rw [hrun] at hstep
    cases hstep
    exact hrest next hnext

theorem run_inside (h : session.Holds model) (calls : List (ProducerCall α))
    {rest : List (ProducerCall α)} (hserves : session.Serves (calls ++ rest)) :
    let performed :=
      Queue.Meanwhile.performAll (Queue.produceInside model.limit model.face) calls model.queue
    ∃ next, session.run (calls.map (.produce · [])) =
        .ok (performed.1.map Answer.asStep, session.withRing next) ∧
      (session.withRing next).Holds { model with queue := performed.2 } ∧
      next.tail = session.channel.ring.tail ∧ (session.withRing next).Serves rest := by
  induction calls generalizing session model with
  | nil => exact ⟨session.channel.ring, rfl, h, rfl, hserves⟩
  | cons call calls ih =>
      rcases hserves with ⟨hproducing, hroom, hlater⟩
      rcases h.step_inside hproducing hroom with ⟨mid, hstep, hmid, htail⟩
      rcases ih hmid (hlater _ _ hstep) with ⟨next, hrun, hnext, hsame, hserves⟩
      refine ⟨next, ?_, hnext, hsame.trans htail, hserves⟩
      simp only [List.map_cons, Session.run, hstep, hrun, ok_bind]
      rfl

/-- Made in turn, the calls of a script are answered as they are inside a drain. -/
theorem inTurn_inside (h : session.Holds model) (script : List (List (ProducerCall α)))
    (count invocation : Nat)
    (hserves : session.Serves ((script.drop invocation).take count).flatten) :
    let turn := (model.consumerMeanwhile script).inTurn model.face count invocation model.queue
    ∃ next, session.inTurn invocation ((script.drop invocation).take count) =
        .ok (turn.1.map (Prod.map id (List.map Answer.asStep)), session.withRing next) ∧
      (session.withRing next).Holds { model with queue := turn.2 } ∧
      next.tail = session.channel.ring.tail := by
  induction count generalizing session model invocation with
  | zero => exact ⟨session.channel.ring, rfl, h, rfl⟩
  | succ count ih =>
      cases hlist : script[invocation]? with
      | none =>
          -- past the end of the script there are no calls any more
          have hend : ∀ {later}, invocation ≤ later → script.drop later = [] := fun hle =>
            List.drop_eq_nil_iff.2 (Nat.le_trans (List.getElem?_eq_none_iff.1 hlist) hle)
          have hfirst := model.consumerMeanwhile_of_nil (congrArg (Option.getD · []) hlist)
            model.face model.queue
          have hrest := ih h (invocation + 1)
          rw [hend (Nat.le_succ invocation), List.take_nil] at hrest
          rw [hend (Nat.le_refl invocation), List.take_nil] at hserves ⊢
          simp only [Queue.Meanwhile.inTurn, hfirst]
          exact hrest hserves
      | some calls =>
          rcases List.getElem?_eq_some_iff.1 hlist with ⟨hlt, rfl⟩
          rw [List.drop_eq_getElem_cons hlt, List.take_succ_cons, List.flatten_cons] at hserves
          rw [List.drop_eq_getElem_cons hlt, List.take_succ_cons]
          cases hcalls : script[invocation] with
          | nil =>
              rw [hcalls] at hserves hlist
              have hfirst := model.consumerMeanwhile_of_nil (congrArg (Option.getD · []) hlist)
                model.face model.queue
              simp only [Queue.Meanwhile.inTurn, hfirst]
              exact ih h (invocation + 1) hserves
          | cons call calls =>
              rw [hcalls] at hserves hlist
              have hproducing : model.producing = true := h.producing_eq.symm.trans hserves.1
              rcases h.run_inside (call :: calls) hserves with ⟨mid, hrun, hmid, htail, hserves⟩
              have hfirst : model.consumerMeanwhile script model.face invocation model.queue =
                  ((Queue.Meanwhile.performAll (Queue.produceInside model.limit model.face)
                    (call :: calls) model.queue).map some id) := by
                simp only [QueueSession.consumerMeanwhile, Queue.Meanwhile.ofScript, hlist,
                  hproducing, if_true]
                rfl
              rcases ih hmid (invocation + 1) hserves with ⟨next, hrest, hnext, hsame⟩
              refine ⟨next, ?_, ?_, hsame.trans htail⟩
              · simp only [Session.inTurn, hrun, hrest, ok_bind, Queue.Meanwhile.inTurn, hfirst]
                rfl
              · simp only [Queue.Meanwhile.inTurn, hfirst]
                exact hnext

theorem step_drain (h : session.Holds model) (hconsuming : session.consuming = true) (max : Nat)
    (panicAt : Option Nat) (script : List (List (ProducerCall α))) :
    let ending := drainEnd panicAt (min max model.queue.items.length)
    let turn := (model.consumerMeanwhile script).inTurn model.face ending.2 0 model.queue
    ∃ drained status, session.step (.consume (.drain max panicAt) script) =
        .ok (⟨.called (.drained ending.1 (model.queue.items.take ending.2)) turn.1, status, [], []⟩,
          session.withRing drained) ∧
      drained.Holds 0 ((turn.2.behead ending.2).recordDrain ending.1) ∧
      drained.tail = session.channel.ring.tail + UInt64.ofNat ending.2 := by
  intro ending turn
  have hfront := Queue.items_prefix_produceInside model.limit model.producing script
  rcases h.ring.drain_inTurn (h.consumerInterlude script) hfront model.face panicAt max with
    ⟨drained, hdrain, hdrained, htail⟩
  have hstatus : ∃ status, (session.withRing drained).status = .ok status :=
    ⟨_, (h.withRing hdrained).status⟩
  rcases hstatus with ⟨status, hstatus⟩
  have hconsume : session.channel.consume (session.consumerInterlude script)
      (.drain max panicAt) =
        .ok (⟨.drained ending.1 (model.queue.items.take ending.2), [], [], turn.1⟩,
          ⟨session.channel.face, drained⟩) := by
    unfold Channel.consume ConsumerCall.perform
    simp only [h.face_eq, hdrain, ok_bind, Journal.told_after_empty, Journal.nested_after_empty,
      ending, turn]
  have htake : session.take (.consume (.drain max panicAt) script) =
      .ok ⟨.called (.drained ending.1 (model.queue.items.take ending.2)) turn.1, [], [],
        session.withRing drained⟩ := by
    unfold Session.take
    simp only
    rw [if_pos hconsuming, hconsume]
    rfl
  refine ⟨drained, status, ?_, hdrained, htail⟩
  simp only [Session.step, htake, hstatus, ok_bind]

end Holds

/-- A drain with producer calls made inside it is these calls, as steps of their own one after
another, and then the removal of the items that it has handed over. These are the items that were
unread to begin with, all that were asked for or those up to the invocation that panics; and until
the drain ends they take up room. -/
theorem drain_linearizes {session : Session α} (h : session.Reachable)
    (hconsuming : session.consuming = true) (max : Nat) (panicAt : Option Nat)
    (script : List (List (ProducerCall α)))
    (hserves : session.Serves
      (script.take (drainEnd panicAt (min max session.channel.ring.length)).2).flatten) :
    let ring := session.channel.ring
    let ending := drainEnd panicAt (min max ring.length)
    ∃ answers undrained released nested answer drained,
      session.inTurn 0 (script.take ending.2) = .ok (answers, undrained) ∧
        ring.contents <+: undrained.channel.ring.contents ∧
        undrained.channel.ring.contents.length ≤ ring.capacity ∧
        undrained.channel.ring.takeOldest ending.2 =
          .ok (ring.contents.take ending.2, released) ∧
        session.step (.consume (.drain max panicAt) script) =
          .ok (answer, undrained.withRing drained) ∧
        answer.reply = .called (.drained ending.1 (ring.contents.take ending.2)) nested ∧
        nested.map (Prod.map id (List.map Answer.asStep)) = answers ∧
        answer.destroyed = [] ∧ answer.events = [] ∧
        drained.Agrees (released.recordDrain ending.1) := by
  intro ring ending
  rcases h.holds with ⟨model, hmodel⟩
  have hlength : ring.length = model.queue.items.length := hmodel.ring.length_eq
  have hcontents : ring.contents = model.queue.items := hmodel.ring.contents_eq
  have hending : drainEnd panicAt (min max model.queue.items.length) = ending := by
    rw [← hlength]
  have hcount : ending.2 ≤ model.queue.items.length := by
    have hle := drainEnd_le panicAt (min max model.queue.items.length)
    rw [hending] at hle
    omega
  rcases hmodel.inTurn_inside script ending.2 0 hserves with ⟨mid, hinTurn, hmid, hmidTail⟩
  rcases hmodel.step_drain hconsuming max panicAt script with
    ⟨drained, status, hstep, hdrained, hdrainedTail⟩
  have hleads := model.items_prefix_inTurn script model.face ending.2 0 model.queue
  have hsteady := model.steady_inTurn script model.face ending.2 0 model.queue
  rw [hending] at hstep hdrained hdrainedTail
  generalize (model.consumerMeanwhile script).inTurn model.face ending.2 0 model.queue = turn
    at hinTurn hmid hstep hdrained hleads hsteady
  have hfits : ending.2 ≤ turn.2.items.length := Nat.le_trans hcount hleads.length_le
  have hmidRing : mid.Holds 0 turn.2 := hmid.ring
  rcases hmidRing.takeOldest hfits with ⟨released, htake, hreleased, hreleasedTail⟩
  have hfront : turn.2.items.take ending.2 = ring.contents.take ending.2 := by
    rcases hleads with ⟨extra, hextra⟩
    rw [hcontents, ← hextra, List.take_append_of_le_length hcount]
  rw [hfront] at htake
  rw [← hcontents] at hstep
  refine ⟨_, session.withRing mid, released, turn.1, _, drained, hinTurn, ?_, ?_, htake, hstep, rfl,
    rfl, rfl, rfl, ?_⟩
  · rw [hcontents]
    exact hmidRing.contents_eq ▸ hleads
  · have hmidContents : (session.withRing mid).channel.ring.contents = turn.2.items :=
      hmidRing.contents_eq
    rw [hmidContents, hmodel.ring.capacity_eq, ← hsteady.capacity_eq]
    exact hmidRing.length_le
  · apply hdrained.agrees (hreleased.recordDrain ending.1)
    rw [RingBuffer.tail_recordDrain, hreleasedTail, hmidTail, hdrainedTail]

/-- A ring whose cursors wrap in its first batch. The handler of a drain panics with the second
item, after its caller has filled the last free slot and looked at the full ring. -/
theorem drain_linearizes_panicking :
    let ring : RingBuffer Tracked :=
      ⟨18446744073709551615, 18446744073709551615, 3, .empty 4, .counting, .zero⟩
    let batch : Step Tracked :=
      .produce (.writeBatch (.ofArray #[⟨1, false⟩, ⟨2, true⟩, ⟨3, false⟩])) []
    let script : List (List (ProducerCall Tracked)) :=
      [[.insert ⟨4, false⟩, .observe], [.observe], [.insert ⟨5, false⟩]]
    ∃ before session answers undrained released nested answer drained,
      (around .growable 64 ring).run [batch] = .ok (before, session) ∧ session.Reachable ∧
        session.Serves [.insert ⟨4, false⟩, .observe, .observe] ∧
        session.inTurn 0 [[.insert ⟨4, false⟩, .observe], [.observe]] = .ok (answers, undrained) ∧
        undrained.channel.ring.takeOldest 2 = .ok ([⟨1, false⟩, ⟨2, true⟩], released) ∧
        session.step (.consume (.drain 3 (some 1)) script) =
          .ok (answer, undrained.withRing drained) ∧
        answer.reply =
          .called (.drained (.panicked .callback) [⟨1, false⟩, ⟨2, true⟩]) nested ∧
        nested.map (Prod.map id (List.map Answer.asStep)) = answers ∧ drained.Agrees released := by
  intro ring batch script
  have hring : RingBuffer.create 64 4 .counting 18446744073709551615 = .ok ring := rfl
  have hsteps : (around .growable 64 ring).AdmitsAll [batch] :=
    admitsAll_of_forall (by simp [batch, Admits]) _
  rcases (holds_around hring .growable 64).run hsteps with ⟨session, hrun, hsession⟩
  have hreachable : session.Reachable := (Reachable.around hring .growable 64).run hsteps hrun
  have hconsuming : session.consuming = true := hsession.consuming_eq
  have hlength : session.channel.ring.length = 3 := hsession.ring.length_eq
  have hcontents : session.channel.ring.contents = [⟨1, false⟩, ⟨2, true⟩, ⟨3, false⟩] :=
    hsession.ring.contents_eq
  have hserves : session.Serves [.insert ⟨4, false⟩, .observe, .observe] := by
    apply hsession.serves_cons rfl (by decide)
    intro second hsecond
    apply hsecond.serves_cons rfl (by decide)
    intro third hthird
    exact hthird.serves_cons rfl (by decide) fun _ _ => trivial
  have hdrain := drain_linearizes hreachable hconsuming 3 (some 1) script
  simp only [hlength, hcontents] at hdrain
  rcases hdrain hserves with ⟨answers, undrained, released, nested, answer, drained, hinTurn, -, -,
    htake, hstep, hreply, hnested, -, -, hagrees⟩
  exact ⟨_, session, answers, undrained, released, nested, answer, drained, hrun, hreachable,
    hserves, hinTurn, htake, hstep, hreply, hnested, hagrees⟩

end Session

end RingChannel
