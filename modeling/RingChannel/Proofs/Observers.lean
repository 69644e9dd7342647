import RingChannel.Proofs.CapacityHistory
import RingChannel.Proofs.Resemblance

/-!
# What the sides see

A handle takes what it shows from the length that anybody may read, which is cut off at the
capacity, and a growable one has a capacity of its own to show. The operations measure between the
cursors. Both come to the same wherever a caller can look: between calls, and in code of its own
while a call runs.
-/

namespace RingChannel

variable {α : Type}

/-! ## Looks -/

def Observation.untitled (seen : Observation) : Observation :=
  { seen with title := none }

/-- A look at a ring from all sides: by both handles, and raw, between the cursors. -/
structure Look where
  producer : Observation
  consumer : Observation
  raw : Observation

namespace Look

/-- Look at a ring. A bare ring is seen raw. -/
def take (face : Face) (ring : RingBuffer α) : Checked Look := do
  let producer ← face.observe .producer ring
  let consumer ← face.observe .consumer ring
  let raw ← Face.bare.observe .producer ring
  .ok ⟨producer, consumer, raw⟩

/-- Both handles show the ring as it is. Nothing is cut off from its length, and a slot is either
unread or free. -/
structure Exact (look : Look) : Prop where
  producer_eq : look.producer.untitled = look.raw
  consumer_eq : look.consumer.untitled = look.raw
  length_eq : look.raw.length = look.raw.readable
  total_eq : look.raw.readable + look.raw.free = look.raw.capacity

def answers (look : Look) : List (Answer α) :=
  [look.producer, look.consumer, look.raw].map fun seen =>
    (Performed.plain (.observed seen)).answer seen.status

/-- All that the caller's code got inside a call are two exact looks at each invocation. -/
def AllExact (nested : List (Nat × List (Answer α))) : Prop :=
  ∀ entry ∈ nested, ∃ before after : Look,
    entry.2 = before.answers ++ after.answers ∧ before.Exact ∧ after.Exact

end Look

/-- The same code of the caller, but what it keeps is how the ring looks before its calls and after
them. -/
def Interlude.looking (interlude : Interlude α) : Interlude α :=
  fun face invocation ring => do
    let before ← Look.take face ring
    let (_, ring) ← interlude face invocation ring
    let after ← Look.take face ring
    .ok (some (before.answers ++ after.answers), ring)

def Face.Shows (capacity : Nat) : Face → Prop
  | .bare | .fixed => True
  | .growable shown => shown = capacity

theorem Face.shows_of_not_growing {face : Face} (h : face.growing = false) (capacity : Nat) :
    face.Shows capacity := by
  cases face with
  | bare | fixed => exact trivial
  | growable shown => cases h

theorem Face.Shows.eq_growable {face : Face} {capacity : Nat} (h : face.Shows capacity)
    (hgrowing : face.growing = true) : face = .growable capacity := by
  cases face with
  | bare | fixed => cases hgrowing
  | growable shown => exact congrArg Face.growable h

namespace Queue

def look (queue : Queue α) (face : Face) : Look :=
  ⟨queue.observe face .producer, queue.observe face .consumer, queue.observe .bare .producer⟩

theorem look_exact {queue : Queue α} {face : Face} (hface : face.Shows queue.capacity)
    (hle : queue.items.length ≤ queue.capacity) : (queue.look face).Exact := by
  have hshown : ∀ role, (queue.observe face role).untitled = queue.observe .bare .producer := by
    intro role
    cases face with
    | bare | fixed => rfl
    | growable shown =>
        cases hface
        rfl
  exact ⟨hshown .producer, hshown .consumer, rfl, Nat.add_sub_cancel' hle⟩

def Meanwhile.looking (meanwhile : Meanwhile α) : Meanwhile α :=
  fun face invocation queue =>
    let next := (meanwhile face invocation queue).2
    (some ((queue.look face).answers ++ (next.look face).answers), next)

end Queue

theorem RingBuffer.Holds.look {ring : RingBuffer α} {gone : Nat} {queue : Queue α}
    (h : ring.Holds gone queue) (face : Face) : Look.take face ring = .ok (queue.look face) := by
  simp only [Look.take, h.observe, ok_bind]
  rfl

theorem Follows.looking {τ : Type} {kept : RingBuffer α → τ} {gone : Nat}
    {interlude : Interlude α} {meanwhile : Queue.Meanwhile α}
    (h : Follows kept gone interlude meanwhile) :
    Follows kept gone interlude.looking meanwhile.looking := by
  intro face invocation queue ring hring
  rcases h face invocation queue ring hring with ⟨next, hrun, hnext, hsame⟩
  refine ⟨next, ?_, hnext, hsame⟩
  simp only [Interlude.looking, hring.look, hrun, hnext.look, ok_bind]
  rfl

/-! ## Looks inside calls -/

namespace Queue

structure Seen (capacity : Nat) (nested : List (Nat × List (Answer α))) (queue : Queue α) :
    Prop where
  capacity_eq : queue.capacity = capacity
  length_le : queue.items.length ≤ queue.capacity
  looks : Look.AllExact nested

variable {capacity : Nat} {nested : List (Nat × List (Answer α))} {queue next : Queue α}
  {face : Face} {meanwhile : Meanwhile α}

theorem Seen.start (hle : queue.items.length ≤ queue.capacity) : Seen queue.capacity [] queue :=
  ⟨rfl, hle, List.forall_mem_nil _⟩

theorem Seen.steady (h : Seen capacity nested queue) (hsteady : queue.Steady next) :
    Seen capacity nested next :=
  ⟨hsteady.capacity_eq.trans h.capacity_eq, hsteady.length_le h.length_le, h.looks⟩

theorem Seen.append {items : List α} (hfit : items.length ≤ queue.free)
    (h : Seen capacity nested queue) : Seen capacity nested (queue.append items) :=
  h.steady (chains_steady.append steady_write hfit)

theorem Seen.remove (count : Nat) (h : Seen capacity nested queue) :
    Seen capacity nested (queue.remove count) :=
  h.steady (chains_steady.remove steady_behead count queue)

theorem Seen.look_exact (h : Seen capacity nested queue) (hface : face.Shows capacity) :
    (queue.look face).Exact := by
  rw [← h.capacity_eq] at hface
  exact Queue.look_exact hface h.length_le

variable (hsteady : ∀ face invocation queue, Steady queue (meanwhile face invocation queue).2)

include hsteady

theorem carries_looking (hface : face.Shows capacity) :
    meanwhile.looking.Carries (Seen capacity) face := by
  intro invocation nested queue h
  have hnext := h.steady (hsteady face invocation queue)
  refine ⟨hnext.capacity_eq, hnext.length_le, ?_⟩
  intro entry hentry
  rcases List.mem_append.1 hentry with hentry | hentry
  · exact h.looks entry hentry
  · cases List.mem_singleton.1 hentry
    exact ⟨_, _, rfl, h.look_exact hface, hnext.look_exact hface⟩

variable [Item α]

theorem consume_looks (hface : face.Shows queue.capacity)
    (hle : queue.items.length ≤ queue.capacity)
    (hfront : ∀ face invocation queue, queue.items <+: (meanwhile face invocation queue).2.items)
    (call : ConsumerCall α) :
    Look.AllExact (queue.consume face meanwhile.looking call).1.nested := by
  rcases (carries_looking hsteady hface).consume (fun count _ _ h => h.remove count) hfront call
    (Seen.start hle) with ⟨mid, hmid, -⟩
  exact hmid.looks

omit hsteady in
theorem grow_shows (hvalid : Capacity.isValid queue.capacity = true)
    (hle : queue.items.length ≤ queue.capacity) (limit needed : Nat) :
    shownAfter queue.capacity (queue.grow limit needed).1 =
        (queue.grow limit needed).2.2.capacity ∧
      (queue.grow limit needed).2.2.items.length ≤ (queue.grow limit needed).2.2.capacity := by
  by_cases hroom : queue.items.length + needed ≤ queue.capacity
  · rw [grow_of_room limit hroom]
    exact ⟨rfl, hle⟩
  · have hshort := Nat.not_le.1 hroom
    by_cases hstuck : Stuck α limit (queue.items.length + needed)
    · rw [grow_of_stuck hvalid hle rfl hshort hstuck]
      exact ⟨rfl, hle⟩
    · rw [grow_of_not_stuck hvalid hle rfl hshort hstuck, capacity_record, items_record]
      have htotal := (Capacity.leastPower_roundUp (queue.items.length + needed)).le
      exact ⟨rfl, by simp only; omega⟩

theorem writeUnbounded_looks (hvalid : Capacity.isValid queue.capacity = true)
    (hle : queue.items.length ≤ queue.capacity)
    (hroom : ∀ face invocation queue, queue.free ≤ (meanwhile face invocation queue).2.free)
    (limit : Nat) (call : ProducerCall α) :
    Look.AllExact
      (queue.writeUnbounded limit meanwhile.looking queue.capacity call).1.nested := by
  cases hcall : call.reserves with
  | false =>
      rcases writeUnbounded_of_not_reserves queue.capacity meanwhile.looking limit queue hcall with
        ⟨reply, hrun, -, -⟩
      rw [hrun]
      exact List.forall_mem_nil _
  | true =>
      have hreserved : queue.reserved limit call = (queue.grow limit call.needed).2.2 :=
        if_pos hcall
      -- code of the caller runs after the growth, through the face that shows its result
      rcases grow_shows hvalid hle limit call.needed with ⟨hshown, hlength⟩
      rw [← hreserved] at hshown hlength
      have hface : (Face.growable (shownAfter queue.capacity
          (queue.grow limit call.needed).1)).Shows (queue.reserved limit call).capacity := hshown
      have hlooking : ∀ face invocation queue,
          queue.free ≤ (meanwhile.looking face invocation queue).2.free := hroom
      rcases Meanwhile.Carries.writeUnbounded (fun hfit h => h.append hfit) hlooking limit
        queue.capacity call (carries_looking hsteady hface) (Seen.start hlength) with
        ⟨mid, hmid, -⟩
      exact hmid.looks

theorem produce_looks (hface : face.Shows queue.capacity)
    (hvalid : Capacity.isValid queue.capacity = true)
    (hle : queue.items.length ≤ queue.capacity)
    (hroom : ∀ face invocation queue, queue.free ≤ (meanwhile face invocation queue).2.free)
    (limit : Nat) (call : ProducerCall α) :
    Look.AllExact (queue.produce limit meanwhile.looking call face).1.nested := by
  have hbounded : ∀ face : Face, face.Shows queue.capacity →
      Look.AllExact (queue.writeBounded face meanwhile.looking call).1.nested := by
    intro face hface
    rcases (carries_looking hsteady hface).writeBounded (fun hfit h => h.append hfit) hroom call
      (Seen.start hle) with ⟨mid, _, hmid, -⟩
    exact hmid.looks
  cases face with
  | bare => exact hbounded .bare trivial
  | fixed => exact hbounded .fixed trivial
  | growable shown =>
      cases hface
      exact writeUnbounded_looks hsteady hvalid hle hroom limit call

end Queue

/-! ## Sessions show their capacity -/

variable [Item α]

theorem QueueSession.face_step {session : QueueSession α} (h : session.face.growing = false)
    (step : Step α) : (session.step step).2.face = session.face := by
  rcases session with ⟨_ | _ | _, queue, limit, producing, consuming⟩
  case growable => cases h
  all_goals
    cases step with
    | produce | consume | dropProducer | dropConsumer | regrow =>
        cases producing <;> cases consuming <;> rfl
    | setLimit | contend => rfl

namespace Session

theorem Holds.shows_step {session : Session α} {model : QueueSession α} (h : session.Holds model)
    (hface : model.face.Shows model.queue.capacity) (step : Step α) :
    (model.step step).2.face.Shows (model.step step).2.queue.capacity := by
  cases hgrowing : model.face.growing with
  | false =>
      rw [QueueSession.face_step hgrowing]
      exact Face.shows_of_not_growing hgrowing _
  | true =>
      rcases (h.growing (hface.eq_growable hgrowing)).step_cases step with ⟨hkeeps, hsame⟩ |
        ⟨call, script, target, rfl, hraises, -, htarget⟩
      · rw [hsame, hkeeps.steady.capacity_eq]
        exact hface
      · rw [htarget, hraises.steady.capacity_eq, Queue.capacity_record]
        exact rfl

theorem Reachable.shows {session : Session α} (h : session.Reachable) :
    ∃ model, session.Holds model ∧ model.face.Shows model.queue.capacity := by
  induction h with
  | around hring kind bytes =>
      refine ⟨_, holds_around hring kind bytes, ?_⟩
      cases kind with
      | bare | fixed => exact trivial
      | growable => exact rfl
  | step _ hadmits hstep ih =>
      rcases ih with ⟨model, hmodel, hface⟩
      rcases hmodel.step hadmits with ⟨next, hrun, hnext⟩
      rw [hrun] at hstep
      cases hstep
      exact ⟨_, hnext, hmodel.shows_step hface _⟩

/-! ## Looks at a session -/

namespace Holds

variable {session : Session α} {model : QueueSession α}

theorem produce_looks (h : session.Holds model) (hface : model.face.Shows model.queue.capacity)
    (call : ProducerCall α) (script : List (List (ConsumerCall α))) :
    ∃ performed channel, session.channel.produce session.limit
        (session.producerInterlude script).looking call = .ok (performed, channel) ∧
      Look.AllExact performed.nested := by
  have hroom := Queue.free_consumeInside model.consuming script
  rcases h.produce (h.producerInterlude script).looking hroom call with ⟨channel, hrun, -, -⟩
  have hsteady := Queue.chains_steady.ofScript
    (Queue.chains_steady.consumeInside Queue.steady_behead) model.consuming script
  exact ⟨_, channel, hrun, Queue.produce_looks hsteady hface h.ring.capacity_valid h.ring.length_le
    hroom model.limit call⟩

theorem consume_looks (h : session.Holds model) (hface : model.face.Shows model.queue.capacity)
    (call : ConsumerCall α) (script : List (List (ProducerCall α))) :
    ∃ performed channel, session.channel.consume (session.consumerInterlude script).looking call =
        .ok (performed, channel) ∧
      Look.AllExact performed.nested := by
  have hfront := Queue.items_prefix_produceInside model.limit model.producing script
  rcases h.consume (fun gone => (h.consumerInterlude script gone).looking) hfront call with
    ⟨channel, hrun, -, -⟩
  have hsteady := Queue.chains_steady.ofScript
    (Queue.chains_steady.produceInside Queue.steady_write model.limit) model.producing script
  exact ⟨_, channel, hrun, Queue.consume_looks hsteady hface h.ring.length_le hfront call⟩

end Holds

end Session

end RingChannel
