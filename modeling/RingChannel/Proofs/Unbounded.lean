import RingChannel.Proofs.Bounded

/-!
# A ring that grows is an unbounded queue

Seen through its answers a growable ring is a plain list: a producer call that succeeds has
appended all its items, one that fails has appended none, and a consumer call answers from the list
alone. When the store was replaced, how often, and where the cursors stood before, cannot be told
from what the consumer gets.
-/

namespace RingChannel

variable {α : Type}

/-- A failure to make room for `needed` items beside `present` ones names a capacity that is too
small for them. -/
def RingError.ForWantOf (present needed : Nat) : RingError → Prop
  | .growthFailed current _ => current < present + needed
  | .invalidCapacity _ | .allocationFailed _ => False

def Observation.Shows (seen : Observation) (count : Nat) : Prop :=
  seen.length = count ∧ seen.isEmpty = (count == 0) ∧ seen.readable = count

/-- The answer to a producer call is that of a plain list that goes from `before` to `after`. -/
def ProducerCall.OfList (call : ProducerCall α) (reply : Reply α) (before after : List α) : Prop :=
  match call, reply with
  | .insert item, .insertedGrowing (.ok _) => after = before ++ [item]
  | .insert item, .insertedGrowing (.error error) =>
      after = before ∧ error.item = item ∧ error.cause.ForWantOf before.length 1
  | .writeBatch items, .wroteGrowing (.ok _) => after = before ++ items.toList
  | .writeBatch items, .wroteGrowing (.error error) =>
      after = before ∧ error.ForWantOf before.length items.size
  | .writeChunked items chunk _, .wroteChunksGrowing (.returned (.ok _)) chunks =>
      after = before ++ items.toList ∧
        chunks = splits (RingBuffer.chunkLength chunk items.size) items.size
  | .writeChunked items _ _, .wroteChunksGrowing (.returned (.error error)) chunks =>
      after = before ∧ chunks = [] ∧ error.ForWantOf before.length items.size
  | .observe, .observed seen => after = before ∧ seen.Shows before.length
  | _, _ => False

def ConsumerCall.OfList (call : ConsumerCall α) (reply : Reply α) (before after : List α) : Prop :=
  after = before.drop (call.taken before) ∧
    ∃ seen : Observation, seen.Shows before.length ∧ reply = call.reply seen before

namespace Step

/-- A call that a growable ring has, with calm code that leaves the other side alone, or a new
bound on memory. -/
def Ordinary : Step α → Prop
  | .produce (.insert _) script | .produce (.writeBatch _) script | .produce .observe script =>
      script = []
  | .produce (.writeChunked _ _ panicAt) script => panicAt = none ∧ script = []
  | .consume call script => call.Calm ∧ script = []
  | .setLimit _ => True
  | _ => False

def OfList (step : Step α) (answer : StepAnswer α) (before after : List α) : Prop :=
  (answer.status.map Status.length = some after.length) ∧
    match step, answer.reply with
    | .produce call _, .called reply nested =>
        call.OfList reply before after ∧ nested = [] ∧ answer.destroyed = []
    | .consume call _, .called reply nested =>
        call.OfList reply before after ∧ nested = [] ∧ answer.destroyed = call.destroyed before
    | .setLimit _, .limitSet => after = before
    | _, _ => False

def AllOfList : List (Step α) → List (StepAnswer α) → (before after : List α) → Prop
  | [], [], before, after => after = before
  | step :: steps, answer :: answers, before, after =>
      ∃ mid, step.OfList answer before mid ∧ AllOfList steps answers mid after
  | _, _, _, _ => False

end Step

namespace Queue

theorem observe_shows (queue : Queue α) (face : Face) (role : Role) :
    (queue.observe face role).Shows queue.items.length :=
  ⟨rfl, rfl, rfl⟩

variable [Item α]

omit [Item α] in
theorem forWantOf {queue : Queue α} {needed : Nat} (h : queue.free < needed) (requested : Nat) :
    (RingError.growthFailed queue.capacity requested).ForWantOf queue.items.length needed := by
  unfold free at h
  unfold RingError.ForWantOf
  omega

theorem writeUnbounded_ofList {call : ProducerCall α} {script : List (List (ConsumerCall α))}
    (hordinary : (Step.produce call script).Ordinary) (limit shown : Nat) (queue : Queue α) :
    call.OfList (queue.writeUnbounded limit .quiet shown call).1.reply queue.items
        (queue.writeUnbounded limit .quiet shown call).2.2.items ∧
      (queue.writeUnbounded limit .quiet shown call).1.nested = [] ∧
      (queue.writeUnbounded limit .quiet shown call).1.destroyed = [] := by
  cases call with
  | insert item =>
      refine ⟨?_, rfl, rfl⟩
      simp only [writeUnbounded, insertGrowing]
      rcases queue.grow_cases limit 1 with ⟨_, _, grown, hgrow, hitems, -⟩ | ⟨_, _, hgrow, hshort⟩
      · rw [hgrow]
        simp only [ProducerCall.OfList, items_append, hitems]
      · rw [hgrow]
        exact ⟨rfl, rfl, forWantOf hshort _⟩
  | writeBatch items =>
      refine ⟨?_, rfl, rfl⟩
      simp only [writeUnbounded, writeGrowing]
      rcases queue.grow_cases limit items.size with
        ⟨_, _, grown, hgrow, hitems, -⟩ | ⟨_, _, hgrow, hshort⟩
      · rw [hgrow]
        simp only [ProducerCall.OfList, items_append, hitems]
      · rw [hgrow]
        exact ⟨rfl, forWantOf hshort _⟩
  | writeChunked items chunk panicAt =>
      cases hordinary.1
      simp only [writeUnbounded, writeChunkedGrowing]
      rcases queue.grow_cases limit items.size with
        ⟨_, _, grown, hgrow, hitems, hroom⟩ | ⟨_, _, hgrow, hshort⟩
      · have hall : items.toList.take grown.free = items.toList :=
          List.take_of_length_le (by simpa using hroom)
        rw [hgrow]
        simp only [writeChunked_calm, Nat.min_eq_left hroom, hall, ProducerCall.OfList,
          items_record, items_append, hitems, Journal.toList_hear_empty, Journal.nested_hear,
          Journal.nested_empty, Array.toList_empty, and_self]
      · rw [hgrow]
        simp only [ProducerCall.OfList, Journal.told_empty, Journal.nested_empty,
          Array.toList_empty, true_and, and_true]
        exact forWantOf hshort _
  | observe => exact ⟨⟨rfl, queue.observe_shows _ _⟩, rfl, rfl⟩
  | insertWith | insertWithBackoff | insertUntil | writeAll => exact hordinary.elim

theorem consume_ofList (hsafe : ∀ item : α, Item.explodes item = false) {call : ConsumerCall α}
    (hcalm : call.Calm) (face : Face) (queue : Queue α) :
    call.OfList (queue.consume face .quiet call).1.reply queue.items
        (queue.consume face .quiet call).2.items ∧
      (queue.consume face .quiet call).1.nested = [] ∧
      (queue.consume face .quiet call).1.destroyed = call.destroyed queue.items := by
  rw [consume_calm hsafe hcalm]
  exact ⟨⟨by simp [served], _, queue.observe_shows face .consumer, rfl⟩, rfl, rfl⟩

end Queue

namespace QueueSession

variable [Item α]

theorem step_ofList (hsafe : ∀ item : α, Item.explodes item = false) {session : QueueSession α}
    {shown : Nat} (hface : session.face = .growable shown) (hproducing : session.producing = true)
    (hconsuming : session.consuming = true) {step : Step α} (hordinary : step.Ordinary) :
    step.OfList (session.step step).1 session.queue.items (session.step step).2.queue.items ∧
      (∃ shown, (session.step step).2.face = .growable shown) ∧
      (session.step step).2.producing = true ∧ (session.step step).2.consuming = true := by
  obtain ⟨face, queue, limit, producing, consuming⟩ := session
  cases hface
  cases hproducing
  cases hconsuming
  cases step with
  | produce call script =>
      have hscript : script = [] := by
        cases call with
        | insert | writeBatch | observe => exact hordinary
        | writeChunked => exact hordinary.2
        | insertWith | insertWithBackoff | insertUntil | writeAll => exact hordinary.elim
      subst hscript
      have hlist := queue.writeUnbounded_ofList hordinary limit shown
      exact ⟨⟨rfl, hlist⟩, ⟨_, rfl⟩, rfl, rfl⟩
  | consume call script =>
      obtain ⟨hcalm, rfl⟩ := hordinary
      obtain ⟨hreply, hnested, hdestroyed⟩ := queue.consume_ofList hsafe hcalm (.growable shown)
      exact ⟨⟨rfl, hreply, hnested, hdestroyed⟩, ⟨shown, rfl⟩, rfl, rfl⟩
  | setLimit bytes => exact ⟨⟨rfl, rfl⟩, ⟨shown, rfl⟩, rfl, rfl⟩
  | dropProducer | dropConsumer | regrow | contend => exact hordinary.elim

theorem run_ofList (hsafe : ∀ item : α, Item.explodes item = false) {session : QueueSession α}
    {shown : Nat} (hface : session.face = .growable shown) (hproducing : session.producing = true)
    (hconsuming : session.consuming = true) {steps : List (Step α)}
    (hordinary : ∀ step ∈ steps, step.Ordinary) :
    Step.AllOfList steps (session.run steps).1 session.queue.items
      (session.run steps).2.queue.items := by
  induction steps generalizing session shown with
  | nil => rfl
  | cons step rest ih =>
      obtain ⟨hstep, ⟨later, hlater⟩, hproduces, hconsumes⟩ :=
        step_ofList hsafe hface hproducing hconsuming (hordinary step List.mem_cons_self)
      have hrest := ih hlater hproduces hconsumes fun other hother =>
        hordinary other (List.mem_cons_of_mem step hother)
      exact ⟨_, hstep, hrest⟩

end QueueSession

namespace Session

variable [Item α]

/-- Every run on a growable ring is answered as by a plain list, under whatever bounds on memory,
and leaves the ring with the items of that list. -/
theorem run_allOfList {limit capacity : Nat} {config : Config} {cursor : UInt64}
    {ring : RingBuffer α} (hring : RingBuffer.create limit capacity config cursor = .ok ring)
    (bytes : Nat) (hsafe : ∀ item : α, Item.explodes item = false) {steps : List (Step α)}
    (hordinary : ∀ step ∈ steps, step.Ordinary) :
    ∃ answers last, (around .growable bytes ring).run steps = .ok (answers, last) ∧
      Step.AllOfList steps answers [] last.channel.ring.contents := by
  have hsteps : (around .growable bytes ring).AdmitsAll steps := by
    refine admitsAll_of_forall (fun step hstep session => ?_) _
    cases step with
    | regrow capacity => exact (hordinary _ hstep).elim
    | produce | consume | setLimit | dropProducer | dropConsumer | contend => exact trivial
  obtain ⟨last, hrun, hlast⟩ := (holds_around hring .growable bytes).run hsteps
  refine ⟨_, last, hrun, ?_⟩
  rw [hlast.ring.contents_eq]
  exact QueueSession.run_ofList hsafe rfl rfl rfl hordinary

/-- One slot that grows twice, the first time with its head past the wrap of the cursors, and fails
to grow once the memory is bounded. -/
theorem run_allOfList_grows :
    let ring : RingBuffer UInt64 :=
      ⟨18446744073709551615, 18446744073709551615, 0, .empty 1, .counting, .zero⟩
    let steps : List (Step UInt64) :=
      [.produce (.insert 1) [], .produce (.insert 2) [], .consume .remove [],
        .produce (.writeChunked (.ofArray #[3, 4, 5]) 2 none) [], .setLimit 8,
        .produce (.insert 6) [], .consume (.drain 9 none) []]
    RingBuffer.create 64 1 .counting 18446744073709551615 = .ok ring ∧
      (∀ item : UInt64, Item.explodes item = false) ∧ (∀ step ∈ steps, step.Ordinary) ∧
      ∃ answers last, (around .growable 64 ring).run steps = .ok (answers, last) ∧
        Step.AllOfList steps answers [] last.channel.ring.contents ∧
        answers.map StepAnswer.reply =
          [.called (.insertedGrowing (.ok none)) [],
            .called (.insertedGrowing (.ok (some ⟨1, 2⟩))) [],
            .called (.removed (some 1)) [],
            .called (.wroteChunksGrowing (.returned (.ok (some ⟨2, 4⟩))) [2, 1]) [],
            .limitSet,
            .called (.insertedGrowing (.error ⟨6, .growthFailed 4 8⟩)) [],
            .called (.drained (.returned 4) [2, 3, 4, 5]) []] ∧
        last.channel.ring.capacity = 4 ∧ last.channel.ring.contents = [] := by
  intro ring steps
  have hring : RingBuffer.create 64 1 .counting 18446744073709551615 = .ok ring := rfl
  have hsafe : ∀ item : UInt64, Item.explodes item = false := fun _ => rfl
  have hordinary : ∀ step ∈ steps, step.Ordinary := by
    simp [steps, Step.Ordinary, ConsumerCall.Calm]
  rcases run_allOfList hring 64 hsafe hordinary with ⟨answers, last, hrun, hlist⟩
  have hsteps : (around .growable 64 ring).AdmitsAll steps :=
    admitsAll_of_forall (by simp [steps, Admits]) _
  -- the run on the queue computes
  rcases (holds_around hring .growable 64).run hsteps with ⟨reached, hreached, hlast⟩
  rw [hrun] at hreached
  cases hreached
  refine ⟨hring, hsafe, hordinary, _, last, hrun, hlist, ?_, ?_, ?_⟩
  · with_unfolding_all rfl
  · rw [hlast.ring.capacity_eq]
    decide +kernel
  · rw [hlast.ring.contents_eq]
    decide +kernel

end Session

end RingChannel
