import RingChannel.Proofs.Counting.Offers

/-!
# What the other side does meanwhile

While one side is at work, only calls of the other side can change the ring. Those of the consumer
take items away from the front and leave the head; those of the producer add items at the back and
leave the tail. Neither side touches the counters of the other.
-/

namespace RingChannel

variable {α γ : Type}

namespace Queue

/-- What calls of the consumer can make of a queue. -/
structure Consumed (before after : Queue α) : Prop where
  capacity_eq : after.capacity = before.capacity
  metered_eq : after.metered = before.metered
  suffix_items : after.items <:+ before.items
  level : before.counters.Level after.counters
  growths_eq : after.counters.growths = before.counters.growths

structure Produced (before after : Queue α) : Prop where
  capacity_eq : after.capacity = before.capacity
  metered_eq : after.metered = before.metered
  prefix_items : before.items <+: after.items
  removed_eq : after.counters.removed = before.counters.removed
  discarded_eq : after.counters.discarded = before.counters.discarded

theorem Consumed.refl (queue : Queue α) : queue.Consumed queue :=
  ⟨rfl, rfl, List.suffix_refl _, .refl _, rfl⟩

theorem Consumed.trans {a b c : Queue α} (hab : a.Consumed b) (hbc : b.Consumed c) :
    a.Consumed c :=
  ⟨hbc.capacity_eq.trans hab.capacity_eq, hbc.metered_eq.trans hab.metered_eq,
    hbc.suffix_items.trans hab.suffix_items, hab.level.trans hbc.level,
    hbc.growths_eq.trans hab.growths_eq⟩

theorem Produced.refl (queue : Queue α) : queue.Produced queue :=
  ⟨rfl, rfl, List.prefix_refl _, rfl, rfl⟩

theorem Produced.trans {a b c : Queue α} (hab : a.Produced b) (hbc : b.Produced c) :
    a.Produced c :=
  ⟨hbc.capacity_eq.trans hab.capacity_eq, hbc.metered_eq.trans hab.metered_eq,
    hab.prefix_items.trans hbc.prefix_items, hbc.removed_eq.trans hab.removed_eq,
    hbc.discarded_eq.trans hab.discarded_eq⟩

theorem Consumed.free_le {before after : Queue α} (h : before.Consumed after) :
    before.free ≤ after.free := by
  have hlength := h.suffix_items.length_le
  unfold free
  rw [h.capacity_eq]
  omega

theorem Releases.consumed {queue next : Queue α} {lost : Nat} (h : queue.Releases lost next) :
    queue.Consumed next := by
  have hlevel := h.level.2
  rcases queue with ⟨capacity, items, metered, counters⟩
  cases h with
  | removed count hle =>
      cases metered <;> exact ⟨rfl, rfl, List.drop_suffix count items, hlevel, rfl⟩
  | discarded count hle =>
      cases metered <;> exact ⟨rfl, rfl, List.drop_suffix count items, hlevel, rfl⟩
  | lost count hle => exact ⟨rfl, rfl, List.drop_suffix lost items, hlevel, rfl⟩

theorem produced_append (items : List α) (queue : Queue α) :
    queue.Produced (queue.append items) := by
  rcases queue with ⟨capacity, present, metered, counters⟩
  cases metered <;> exact ⟨rfl, rfl, List.prefix_append present items, rfl, rfl⟩

theorem Stores.produced {queue next : Queue α} {refused : Nat} (h : queue.Stores refused next) :
    queue.Produced next := by
  cases h with
  | intro items refused hfit =>
      refine (queue.produced_append items).trans ?_
      rcases queue.append items with ⟨capacity, present, metered, counters⟩
      cases metered <;> exact ⟨rfl, rfl, List.prefix_refl present, rfl, rfl⟩

variable [Item α]

theorem consumed_consumeInside (face : Face) (call : ConsumerCall α) (queue : Queue α) :
    queue.Consumed (queue.consumeInside face call).2 := by
  have hquiet : (Meanwhile.quiet : Meanwhile α).Carries (fun _ mid => queue.Consumed mid) face :=
    .quiet
  rcases hquiet.consume (fun count _ mid hmid => hmid.trans (releases_remove count mid).consumed)
    (fun _ _ queue => List.prefix_refl queue.items) call (.refl queue) with ⟨mid, hmid, hreleases⟩
  exact hmid.trans hreleases.consumed

theorem produced_produceInside (limit : Nat) (face : Face) (call : ProducerCall α)
    (queue : Queue α) : queue.Produced (queue.produceInside limit face call).2 := by
  have hquiet : ∀ face,
      (Meanwhile.quiet : Meanwhile α).Carries (fun _ mid => queue.Produced mid) face :=
    fun _ => .quiet
  have happend : ∀ {items : List α} {mid : Queue α}, items.length ≤ mid.free →
      queue.Produced mid → queue.Produced (mid.append items) := by
    intro items mid _ hmid
    exact hmid.trans (produced_append items mid)
  have hroom : ∀ (face : Face) (invocation : Nat) (queue : Queue α),
      queue.free ≤ ((Meanwhile.quiet : Meanwhile α) face invocation queue).2.free :=
    fun _ _ queue => Nat.le_refl queue.free
  have hbounded : ∀ face : Face, queue.Produced (queue.writeBounded face .quiet call).2 := by
    intro face
    rcases (hquiet face).writeBounded
        (fun hfit hmid => happend hfit hmid) hroom call (Produced.refl queue) with
      ⟨mid, refused, hmid, hstores⟩
    exact hmid.trans hstores.produced
  unfold Queue.produceInside
  cases face with
  | bare => exact hbounded .bare
  | fixed => exact hbounded .fixed
  | growable shown =>
      simp only
      split
      · exact .refl queue
      · rename_i hblocked
        have hreserved : queue.Produced (queue.reserved limit call) := by
          rw [reserved_of_room limit (Nat.not_lt.1 hblocked)]
          exact Produced.refl queue
        rcases Meanwhile.Carries.writeUnbounded (fun hfit hmid => happend hfit hmid) hroom limit
          shown call (hquiet _) hreserved with ⟨mid, hmid, hstores⟩
        exact hmid.trans hstores.produced

omit [Item α] in
/-- What each call makes of a queue in one go, many make of it one after another. -/
theorem Meanwhile.performAll_of_trans {R : Queue α → Queue α → Prop}
    (hrefl : ∀ queue, R queue queue) (htrans : ∀ {a b c}, R a b → R b c → R a c)
    {perform : γ → Queue α → Answer α × Queue α}
    (hperform : ∀ call queue, R queue (perform call queue).2) (calls : List γ) (queue : Queue α) :
    R queue (performAll perform calls queue).2 := by
  induction calls generalizing queue with
  | nil => exact hrefl queue
  | cons call rest ih => exact htrans (hperform call queue) (ih _)

end Queue

namespace RingBuffer.Holds

variable [Item α] {ring : RingBuffer α} {queue : Queue α}

theorem consumeCalls (h : ring.Holds 0 queue) (face : Face) (calls : List (ConsumerCall α)) :
    ∃ answers later next,
      Interlude.performAll (Channel.consumeInside face) calls ring = .ok (answers, later) ∧
        later.Holds 0 next ∧ later.head = ring.head ∧ queue.Consumed next := by
  have hcall : ∀ call (queue : Queue α) (ring : RingBuffer α), ring.Holds 0 queue → ∃ next,
      Channel.consumeInside face call ring = .ok ((queue.consumeInside face call).1, next) ∧
        next.Holds 0 (queue.consumeInside face call).2 ∧ next.head = ring.head :=
    fun call _ _ hring => hring.consumeInside face call
  rcases Follows.performAll hcall calls h with ⟨later, hrun, hlater, hhead⟩
  exact ⟨_, later, _, hrun, hlater, hhead,
    Queue.Meanwhile.performAll_of_trans .refl .trans (Queue.consumed_consumeInside face) calls
      queue⟩

theorem produceCalls (h : ring.Holds 0 queue) (limit : Nat) (face : Face)
    (calls : List (ProducerCall α)) :
    ∃ answers later next,
      Interlude.performAll (Channel.produceInside limit face) calls ring = .ok (answers, later) ∧
        later.Holds 0 next ∧ later.tail = ring.tail ∧ queue.Produced next := by
  have hcall : ∀ call (queue : Queue α) (ring : RingBuffer α), ring.Holds 0 queue → ∃ next,
      Channel.produceInside limit face call ring =
          .ok ((queue.produceInside limit face call).1, next) ∧
        next.Holds 0 (queue.produceInside limit face call).2 ∧ next.tail = ring.tail :=
    fun call _ _ hring => hring.produceInside limit face call
  rcases Follows.performAll hcall calls h with ⟨later, hrun, hlater, htail⟩
  exact ⟨_, later, _, hrun, hlater, htail,
    Queue.Meanwhile.performAll_of_trans .refl .trans (Queue.produced_produceInside limit face)
      calls queue⟩

end RingBuffer.Holds

namespace Interlude

variable {β : Type}

/-- Calls made one after another can be cut anywhere. -/
theorem performAll_append {perform : γ → RingBuffer α → Checked (Answer α × RingBuffer α)}
    {made rest : List γ} {ring mid last : RingBuffer α} {given others : List (Answer α)}
    (hmade : performAll perform made ring = .ok (given, mid))
    (hrest : performAll perform rest mid = .ok (others, last)) :
    performAll perform (made ++ rest) ring = .ok (given ++ others, last) := by
  induction made generalizing ring given with
  | nil =>
      cases hmade
      exact hrest
  | cons call made ih =>
      simp only [performAll, bind_eq_ok_iff] at hmade
      rcases hmade with ⟨⟨answer, next⟩, hcall, ⟨answers, left⟩, hmade, hpair⟩
      cases hpair
      simp only [List.cons_append, performAll, hcall, ih hmade, ok_bind]

theorem invoke_of_performAll {face : Face} {present : Bool}
    {perform : Face → γ → RingBuffer α → Checked (Answer α × RingBuffer α)} {calls : List γ}
    (hpresent : calls ≠ [] → present = true) {ring mid : RingBuffer α} {answers : List (Answer α)}
    (hcalls : performAll (perform face) calls ring = .ok (answers, mid))
    (later : List (List γ)) (argument : β) :
    ∃ journal, (ofScript present perform (calls :: later)).invoke face argument .empty ring =
        .ok (journal, mid) ∧
      journal.told.size = 1 ∧
      journal.nested.toList = if calls.isEmpty then [] else [(0, answers)] := by
  have hsize : (Journal.empty : Journal α β).told.size = 0 := rfl
  unfold invoke ofScript
  cases calls with
  | nil =>
      cases hcalls
      simp only [hsize, List.getElem?_cons_zero, ok_bind]
      exact ⟨_, rfl, rfl, rfl⟩
  | cons call rest =>
      simp only [hsize, List.getElem?_cons_zero, hpresent (List.cons_ne_nil call rest), if_true,
        hcalls, ok_bind]
      exact ⟨_, rfl, rfl, rfl⟩

end Interlude

end RingChannel
