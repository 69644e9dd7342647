import RingChannel.Proofs.Queue.Reserve

/-!
# What a call can do to a queue

Every call is made of a few moves: counting, dropping from the front, appending to the back,
raising the capacity, and what the caller does meanwhile. A relation that holds for each move and
can be chained holds for whole calls, however their loops go.
-/

namespace RingChannel.Queue

variable {α β κ : Type} {R : Queue α → Queue α → Prop}

/-- A relation between a queue and a later one that can be chained and does not mind the counts,
except perhaps that of growths. -/
structure Chains (R : Queue α → Queue α → Prop) : Prop where
  refl : ∀ queue, R queue queue
  trans : ∀ {a b c}, R a b → R b c → R a c
  record : ∀ {tally : Tally}, tally ≠ .growth → ∀ queue : Queue α, R queue (queue.record tally)

namespace Chains

variable (chains : Chains R)

include chains

/-! ## The loops -/

section writing

variable (hwrite : ∀ {items : List α} {queue : Queue α}, items.length ≤ queue.free →
  R queue { queue with items := queue.items ++ items })

include hwrite

theorem append {items : List α} {queue : Queue α} (hfit : items.length ≤ queue.free) :
    R queue (queue.append items) :=
  chains.trans (hwrite hfit) (chains.record (by simp) _)

theorem writeRounds {reaction : Reaction α Nat κ}
    (hreaction : ∀ count memory queue, R queue (reaction count memory queue).2.2)
    (items : Block α) (chunk written : Nat) (memory : κ) (queue : Queue α) :
    R queue (queue.writeRounds items chunk reaction written memory).2.2 := by
  fun_induction Queue.writeRounds items chunk reaction written memory queue with
  | case1 written memory queue count hcount => exact chains.refl queue
  | case2 written memory queue count hcount memory' queue' hrun ih =>
      have hcall := hreaction count memory (queue.append ((items.toList.drop written).take count))
      rw [hrun] at hcall
      have hfit : ((items.toList.drop written).take count).length ≤ queue.free :=
        Nat.le_trans (List.length_take_le _ _) (Nat.min_le_right _ _)
      exact chains.trans (chains.append hwrite hfit) (chains.trans hcall ih)
  | case3 written memory queue count hcount memory' queue' hrun =>
      have hcall := hreaction count memory (queue.append ((items.toList.drop written).take count))
      rw [hrun] at hcall
      have hfit : ((items.toList.drop written).take count).length ≤ queue.free :=
        Nat.le_trans (List.length_take_le _ _) (Nat.min_le_right _ _)
      exact chains.trans (chains.append hwrite hfit) hcall

theorem writeChunked {reaction : Reaction α Nat κ}
    (hreaction : ∀ count memory queue, R queue (reaction count memory queue).2.2)
    (items : Block α) (chunk : Nat) (memory : κ) (queue : Queue α) :
    R queue (queue.writeChunked items chunk reaction memory).2.2 := by
  have hrounds := chains.writeRounds hwrite hreaction items
    (RingBuffer.chunkLength chunk items.size) 0 memory queue
  unfold Queue.writeChunked
  split
  · rename_i cause memory' queue' hrun
    rw [hrun] at hrounds
    exact hrounds
  · rename_i written memory' queue' hrun
    rw [hrun] at hrounds
    exact chains.trans hrounds (chains.record (by simp) _)

theorem pushWith {make : κ → Queue α → Option α × κ × Queue α}
    (hmake : ∀ memory queue, R queue (make memory queue).2.2)
    (hroom : ∀ memory queue, queue.free ≤ (make memory queue).2.2.free) (memory : κ)
    (queue : Queue α) : R queue (queue.pushWith make memory).2.2 := by
  have hcall := hmake memory queue
  have hkeep := hroom memory queue
  unfold Queue.pushWith
  split
  · exact chains.record (by simp) _
  · rename_i hfree
    split
    · rename_i memory' queue' hrun
      rw [hrun] at hcall
      exact hcall
    · rename_i item memory' queue' hrun
      rw [hrun] at hcall hkeep
      have hfit : [item].length ≤ queue'.free :=
        Nat.le_trans (Nat.pos_iff_ne_zero.2 hfree) hkeep
      exact chains.trans hcall (chains.append hwrite hfit)

end writing

section reading

variable (hbehead : ∀ (count : Nat) (queue : Queue α), R queue (queue.behead count))

include hbehead

theorem remove (count : Nat) (queue : Queue α) : R queue (queue.remove count) :=
  chains.trans (hbehead count queue) (chains.record (by simp) _)

theorem readRounds {reaction : Reaction α Nat κ}
    (hreaction : ∀ count memory queue, R queue (reaction count memory queue).2.2)
    (chunk total done : Nat) (buffer : Block α) (memory : κ) (queue : Queue α) :
    R queue (queue.readRounds chunk reaction total done buffer memory).2.2.2 := by
  fun_induction Queue.readRounds chunk reaction total done buffer memory queue with
  | case1 done buffer memory queue count hcount => exact chains.refl queue
  | case2 =>
      rename_i done buffer memory queue count hcount buffer' memory' queue' hrun ih
      have hcall := hreaction count memory (queue.remove count)
      rw [hrun] at hcall
      exact chains.trans (chains.remove hbehead _ _) (chains.trans hcall ih)
  | case3 =>
      rename_i done buffer memory queue count hcount buffer' memory' queue' hrun
      have hcall := hreaction count memory (queue.remove count)
      rw [hrun] at hcall
      exact chains.trans (chains.remove hbehead _ _) hcall

theorem discard [Item α] (count : Nat) (queue : Queue α) :
    R queue (queue.discard count).2.2 := by
  unfold Queue.discard
  split
  · exact chains.trans (hbehead _ _) (chains.record (by simp) _)
  · exact hbehead _ _

omit hbehead in
theorem drainRun {reaction : Reaction α α κ}
    (hreaction : ∀ item memory queue, R queue (reaction item memory queue).2.2)
    (items : List α) (done : Nat) (memory : κ) (queue : Queue α) :
    R queue (queue.drainRun reaction items done memory).2.2.2 := by
  induction items generalizing done memory queue with
  | nil => exact chains.refl queue
  | cons item rest ih =>
      have hcall := hreaction item memory queue
      unfold Queue.drainRun
      split
      · rename_i memory' queue' hrun
        rw [hrun] at hcall
        exact chains.trans hcall (ih _ _ _)
      · rename_i memory' queue' hrun
        rw [hrun] at hcall
        exact hcall

theorem drain {reaction : Reaction α α κ}
    (hreaction : ∀ item memory queue, R queue (reaction item memory queue).2.2)
    (limit : Nat) (memory : κ) (queue : Queue α) :
    R queue (queue.drain limit reaction memory).2.2 := by
  have hrun := chains.drainRun hreaction (queue.items.take limit) 0 memory queue
  unfold Queue.drain
  split
  · rename_i done memory' queue' hanswer
    rw [hanswer] at hrun
    exact chains.trans hrun (chains.trans (hbehead _ _) (chains.record (by simp) _))
  · rename_i cause done memory' queue' hanswer
    rw [hanswer] at hrun
    exact chains.trans hrun (hbehead _ _)

end reading

/-! ## Whole calls -/

variable {meanwhile : Meanwhile α}
  (hmeanwhile : ∀ face invocation queue, R queue (meanwhile face invocation queue).2)

include hmeanwhile

omit chains in
theorem callback (face : Face) (panicAt : Option Nat) (argument : β) (journal : Journal α β)
    (queue : Queue α) :
    R queue (meanwhile.callback face panicAt argument journal queue).2.2 :=
  hmeanwhile face journal.told.size queue

omit chains in
theorem factory (face : Face) (panicAt : Option Nat) (item : α) (journal : Journal α Unit)
    (queue : Queue α) : R queue (meanwhile.factory face panicAt item journal queue).2.2 :=
  hmeanwhile face journal.told.size queue

theorem writeBounded
    (hwrite : ∀ {items : List α} {queue : Queue α}, items.length ≤ queue.free →
      R queue { queue with items := queue.items ++ items })
    (hroom : ∀ face invocation queue, queue.free ≤ (meanwhile face invocation queue).2.free)
    (face : Face) (queue : Queue α) (call : ProducerCall α) :
    R queue (queue.writeBounded face meanwhile call).2 := by
  have hone : ∀ {item : α}, queue.free ≠ 0 → R queue (queue.append [item]) :=
    fun hfree => chains.append hwrite (Nat.pos_iff_ne_zero.2 hfree)
  have hrepeat : ∀ attempts item, R queue (queue.pushRepeatedly attempts item).2 := by
    intro attempts item
    unfold Queue.pushRepeatedly
    split
    · exact chains.record (by simp) _
    · exact hone (by assumption)
  cases call with
  | insert item =>
      change R queue (queue.push item).2
      unfold Queue.push
      split
      · exact chains.record (by simp) _
      · exact hone (by assumption)
  | insertWith item panicAt =>
      exact chains.pushWith hwrite (factory hmeanwhile face panicAt item)
        (fun journal queue => hroom face journal.told.size queue) .empty queue
  | insertWithBackoff item => exact hrepeat 12 item
  | insertUntil item readings => exact hrepeat (readings + 1) item
  | writeBatch items =>
      refine chains.trans (chains.record (by simp) _) (chains.append hwrite ?_)
      rw [free_record]
      exact Nat.le_trans (List.length_take_le _ _) (Nat.min_le_right _ _)
  | writeChunked items chunk panicAt =>
      exact chains.writeChunked hwrite (callback hmeanwhile face panicAt) items chunk .empty queue
  | writeAll items =>
      change R queue (queue.writeAll items).2
      unfold Queue.writeAll
      split
      · exact chains.refl queue
      · rename_i hroom
        exact chains.append hwrite (items.length_toList ▸ Nat.not_lt.1 hroom)
  | observe => exact chains.refl queue

theorem writeUnbounded [Item α]
    (hwrite : ∀ {items : List α} {queue : Queue α}, items.length ≤ queue.free →
      R queue { queue with items := queue.items ++ items })
    (limit shown : Nat) (queue : Queue α) (call : ProducerCall α) :
    R (queue.reserved limit call) (queue.writeUnbounded limit meanwhile shown call).2.2 := by
  have hroom : ∀ growth, (queue.grow limit call.needed).1 = .ok growth →
      call.needed ≤ (queue.grow limit call.needed).2.2.free := fun _ => grow_ok
  cases call with
  | insert item =>
      change R (queue.grow limit 1).2.2 (queue.insertGrowing limit item).2.2
      unfold insertGrowing
      simp only [ProducerCall.needed] at hroom
      generalize queue.grow limit 1 = answer at hroom ⊢
      obtain ⟨result, events, grown⟩ := answer
      cases result with
      | error cause => exact chains.refl grown
      | ok growth => exact chains.append hwrite (hroom growth rfl)
  | writeBatch items =>
      change R (queue.grow limit items.size).2.2 (queue.writeGrowing limit items).2.2
      unfold writeGrowing
      simp only [ProducerCall.needed] at hroom
      generalize queue.grow limit items.size = answer at hroom ⊢
      obtain ⟨result, events, grown⟩ := answer
      cases result with
      | error cause => exact chains.refl grown
      | ok growth => exact chains.append hwrite (items.length_toList ▸ hroom growth rfl)
  | writeChunked items chunk panicAt =>
      change R (queue.grow limit items.size).2.2 (queue.writeChunkedGrowing limit items chunk
        (fun shown => meanwhile.callback (.growable shown) panicAt) .empty shown).2.2.2
      unfold writeChunkedGrowing
      generalize queue.grow limit items.size = answer
      obtain ⟨result, events, grown⟩ := answer
      cases result with
      | error cause => exact chains.refl grown
      | ok growth =>
          have hchunks := chains.writeChunked hwrite
            (callback hmeanwhile (.growable (shownAfter shown (.ok growth))) panicAt) items chunk
            .empty grown
          simp only
          split
          · rename_i hanswer
            rw [hanswer] at hchunks
            exact hchunks
          · rename_i hanswer
            rw [hanswer] at hchunks
            exact hchunks
  | insertWith | insertWithBackoff | insertUntil | writeAll | observe => exact chains.refl queue

theorem consume [Item α]
    (hbehead : ∀ (count : Nat) (queue : Queue α), R queue (queue.behead count))
    (face : Face) (queue : Queue α) (call : ConsumerCall α) :
    R queue (queue.consume face meanwhile call).2 := by
  cases call with
  | remove | removeWithBackoff | removeUntil _ => exact chains.remove hbehead 1 queue
  | removeInto target =>
      change R queue (queue.popInto target).2.2.2
      unfold popInto
      split
      · exact chains.refl queue
      · exact chains.remove hbehead 1 queue
  | hold index =>
      simp only [Queue.consume, Queue.hold]
      split
      · exact chains.refl queue
      · exact hmeanwhile face 0 queue
  | discard count => exact chains.discard hbehead count queue
  | discardExact count =>
      change R queue (queue.discardExact count).2.2
      unfold discardExact
      split
      · exact chains.refl queue
      · exact chains.discard hbehead count queue
  | clear => exact chains.discard hbehead _ queue
  | drain limit panicAt =>
      exact chains.drain hbehead (callback hmeanwhile face panicAt) limit .empty queue
  | readBatch buffer => exact chains.remove hbehead _ queue
  | readExact buffer =>
      change R queue (queue.readExact buffer).2.2
      unfold Queue.readExact
      split
      · exact chains.refl queue
      · exact chains.remove hbehead _ queue
  | readChunked buffer chunk panicAt =>
      exact chains.readRounds hbehead (callback hmeanwhile face panicAt) _ _ 0 buffer .empty queue
  | peek | peekAt _ | peekBatch _ | observe => exact chains.refl queue

/-! ## Scripts -/

omit hmeanwhile in
theorem performAll {γ : Type} {perform : γ → Queue α → Answer α × Queue α}
    (hperform : ∀ call queue, R queue (perform call queue).2) (calls : List γ) (queue : Queue α) :
    R queue (Meanwhile.performAll perform calls queue).2 := by
  induction calls generalizing queue with
  | nil => exact chains.refl queue
  | cons call rest ih => exact chains.trans (hperform call queue) (ih _)

omit hmeanwhile in
theorem ofScript {γ : Type} {perform : Face → γ → Queue α → Answer α × Queue α}
    (hperform : ∀ face call queue, R queue (perform face call queue).2) (present : Bool)
    (script : List (List γ)) (face : Face) (invocation : Nat) (queue : Queue α) :
    R queue (Meanwhile.ofScript present perform script face invocation queue).2 := by
  unfold Meanwhile.ofScript
  split
  · exact chains.refl queue
  · exact chains.refl queue
  · split
    · exact chains.performAll (hperform face) _ queue
    · exact chains.refl queue

omit hmeanwhile in
theorem consumeInside [Item α]
    (hbehead : ∀ (count : Nat) (queue : Queue α), R queue (queue.behead count)) (face : Face)
    (call : ConsumerCall α) (queue : Queue α) : R queue (queue.consumeInside face call).2 :=
  chains.consume (fun _ _ queue => chains.refl queue) hbehead face queue call

omit hmeanwhile in
theorem produceInside [Item α]
    (hwrite : ∀ {items : List α} {queue : Queue α}, items.length ≤ queue.free →
      R queue { queue with items := queue.items ++ items })
    (limit : Nat) (face : Face) (call : ProducerCall α) (queue : Queue α) :
    R queue (queue.produceInside limit face call).2 := by
  have hquiet : ∀ (face : Face) (invocation : Nat) (queue : Queue α),
      R queue (Meanwhile.quiet face invocation queue).2 := fun _ _ queue => chains.refl queue
  unfold Queue.produceInside
  split
  · split
    · exact chains.refl queue
    · rename_i hroom
      have hwritten := chains.writeUnbounded hquiet hwrite limit ‹Nat› queue call
      rw [reserved_of_room limit (Nat.not_lt.1 hroom)] at hwritten
      exact hwritten
  · exact chains.writeBounded hquiet hwrite (fun _ _ queue => Nat.le_refl queue.free) _ queue call

end Chains

/-! ## Uses

What the other side does meanwhile never takes anything away from the side that is at work, and
neither side grows the queue unless it reserves room. -/

theorem chains_leading : Chains fun a b : Queue α => a.items <+: b.items where
  refl := fun queue => List.prefix_refl queue.items
  trans := fun hab hbc => List.IsPrefix.trans hab hbc
  record := fun _ queue => by simp

theorem prefix_append {items : List α} {queue : Queue α} (_hfit : items.length ≤ queue.free) :
    queue.items <+: queue.items ++ items :=
  List.prefix_append queue.items items

theorem chains_trailing : Chains fun a b : Queue α => b.items <:+ a.items where
  refl := fun queue => List.suffix_refl queue.items
  trans := fun hab hbc => List.IsSuffix.trans hbc hab
  record := fun _ queue => by simp

theorem chains_roomier : Chains fun a b : Queue α => a.free ≤ b.free where
  refl := fun queue => Nat.le_refl queue.free
  trans := Nat.le_trans
  record := fun _ queue => by simp

theorem free_behead (count : Nat) (queue : Queue α) : queue.free ≤ (queue.behead count).free := by
  simp only [free, capacity_behead, items_behead, List.length_drop]
  omega

/-- Later queues have the capacity of the present one, and no more growths behind them. They do not
overflow if it does not. -/
structure Steady (a b : Queue α) : Prop where
  capacity_eq : b.capacity = a.capacity
  metered_eq : b.metered = a.metered
  growths_eq : b.counters.growths = a.counters.growths
  length_le : a.items.length ≤ a.capacity → b.items.length ≤ b.capacity

theorem chains_steady : Chains (Steady (α := α)) where
  refl := fun _ => ⟨rfl, rfl, rfl, fun hle => hle⟩
  trans := fun hab hbc =>
    ⟨hbc.capacity_eq.trans hab.capacity_eq, hbc.metered_eq.trans hab.metered_eq,
      hbc.growths_eq.trans hab.growths_eq, fun hle => hbc.length_le (hab.length_le hle)⟩
  record := by
    intro tally htally queue
    refine ⟨by simp, by simp, ?_, by simp⟩
    unfold Queue.record
    split
    · cases tally with
      | inserted | removed | discarded | rejected => rfl
      | growth => exact absurd rfl htally
    · rfl

theorem steady_write {items : List α} {queue : Queue α} (hfit : items.length ≤ queue.free) :
    queue.Steady { queue with items := queue.items ++ items } := by
  refine ⟨rfl, rfl, rfl, ?_⟩
  intro hle
  unfold free at hfit
  simp only [List.length_append]
  omega

theorem steady_behead (count : Nat) (queue : Queue α) : queue.Steady (queue.behead count) := by
  refine ⟨rfl, rfl, rfl, ?_⟩
  intro hle
  simp only [items_behead, List.length_drop, capacity_behead]
  omega

variable [Item α]

/-- Consumer calls in an interlude only make room. -/
theorem free_consumeInside (present : Bool) (script : List (List (ConsumerCall α))) (face : Face)
    (invocation : Nat) (queue : Queue α) :
    queue.free ≤
      (Meanwhile.ofScript present consumeInside script face invocation queue).2.free :=
  chains_roomier.ofScript (chains_roomier.consumeInside free_behead) present script face invocation
    queue

theorem items_suffix_consumeInside (present : Bool) (script : List (List (ConsumerCall α)))
    (face : Face) (invocation : Nat) (queue : Queue α) :
    (Meanwhile.ofScript present consumeInside script face invocation queue).2.items <:+
      queue.items :=
  chains_trailing.ofScript
    (chains_trailing.consumeInside fun count queue => List.drop_suffix count queue.items) present
    script face invocation queue

theorem items_prefix_produceInside (limit : Nat) (present : Bool)
    (script : List (List (ProducerCall α))) (face : Face) (invocation : Nat) (queue : Queue α) :
    queue.items <+:
      (Meanwhile.ofScript present (produceInside limit) script face invocation queue).2.items :=
  chains_leading.ofScript (chains_leading.produceInside prefix_append limit) present script face
    invocation queue

end RingChannel.Queue
