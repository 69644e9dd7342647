import RingChannel.Proofs.Queue.Calls
import RingChannel.Proofs.Refinement.Grow
import RingChannel.Proofs.Refinement.Release

/-!
# Calls on a ring are calls on its queue

What the caller does meanwhile is compared first: an interlude follows what happens to the queue.
A whole call then answers as the call on the queue does, whatever such an interlude does in it, and
calls made in an interlude follow in their turn.
-/

namespace RingChannel

variable {α β γ τ : Type}

/-- What the caller does to a ring in an interlude is what it does to the queue meanwhile. -/
def Follows (kept : RingBuffer α → τ) (gone : Nat) (interlude : Interlude α)
    (meanwhile : Queue.Meanwhile α) : Prop :=
  ∀ face invocation queue ring, ring.Holds gone queue → ∃ next,
    interlude face invocation ring = .ok ((meanwhile face invocation queue).1, next) ∧
      next.Holds gone (meanwhile face invocation queue).2 ∧ kept next = kept ring

namespace RingBuffer.Holds

variable {ring : RingBuffer α} {gone : Nat} {queue : Queue α}

theorem observe (h : ring.Holds gone queue) (face : Face) (role : Role) :
    face.observe role ring = .ok (queue.observe face role) := by
  have hsubtract : subtract queue.capacity queue.items.length = .ok queue.free :=
    subtract_of_le h.length_le
  unfold Face.observe Queue.observe
  cases face <;>
    simp only [h.free_eq, RingBuffer.readable_eq, h.length_eq, h.capacity_eq, h.live_eq,
      h.metrics_eq, hsubtract, ok_bind]

end RingBuffer.Holds

namespace Follows

variable {kept : RingBuffer α → τ} {gone : Nat} {interlude : Interlude α}
  {meanwhile : Queue.Meanwhile α}

theorem quiet : Follows kept gone .quiet .quiet :=
  fun _ _ _ ring h => ⟨ring, rfl, h, rfl⟩

theorem mono {σ : Type} {shown : RingBuffer α → σ} (h : Follows shown gone interlude meanwhile)
    (view : σ → τ) : Follows (fun ring => view (shown ring)) gone interlude meanwhile := by
  intro face invocation queue ring hring
  obtain ⟨next, hrun, hnext, hsame⟩ := h face invocation queue ring hring
  exact ⟨next, hrun, hnext, congrArg view hsame⟩

theorem invoke (h : Follows kept gone interlude meanwhile) (face : Face) (argument : β)
    (journal : Journal α β) {ring : RingBuffer α} {queue : Queue α}
    (hring : ring.Holds gone queue) :
    ∃ next, interlude.invoke face argument journal ring =
        .ok ((meanwhile.invoke face argument journal queue).1, next) ∧
      next.Holds gone (meanwhile.invoke face argument journal queue).2 ∧ kept next = kept ring := by
  obtain ⟨next, hrun, hnext, hsame⟩ := h face journal.told.size queue ring hring
  unfold Interlude.invoke
  rw [hrun]
  exact ⟨next, rfl, hnext, hsame⟩

theorem callback (h : Follows kept gone interlude meanwhile) (face : Face) (panicAt : Option Nat)
    (argument : β) (journal : Journal α β) (queue : Queue α) :
    Tracks kept gone (interlude.callback face panicAt argument journal) queue
      (meanwhile.callback face panicAt argument journal queue) := by
  intro ring hring
  obtain ⟨next, hrun, hnext, hsame⟩ := h.invoke face argument journal hring
  unfold Interlude.callback
  rw [hrun]
  exact ⟨next, rfl, hnext, hsame⟩

theorem factory (h : Follows kept gone interlude meanwhile) (face : Face) (panicAt : Option Nat)
    (item : α) (journal : Journal α Unit) (queue : Queue α) :
    Tracks kept gone (interlude.factory face panicAt item journal) queue
      (meanwhile.factory face panicAt item journal queue) := by
  intro ring hring
  obtain ⟨next, hrun, hnext, hsame⟩ := h.callback face panicAt () journal queue ring hring
  refine ⟨next, ?_, hnext, hsame⟩
  unfold Interlude.factory
  rw [hrun]
  unfold Queue.Meanwhile.callback Queue.Meanwhile.factory
  by_cases hpanic : panicAt = some journal.told.size
  · simp only [hpanic, if_true, ok_bind]
  · simp only [hpanic, if_false, ok_bind]

theorem performAll {perform : γ → RingBuffer α → Checked (Answer α × RingBuffer α)}
    {answer : γ → Queue α → Answer α × Queue α}
    (h : ∀ call queue ring, ring.Holds gone queue → ∃ next,
      perform call ring = .ok ((answer call queue).1, next) ∧
        next.Holds gone (answer call queue).2 ∧ kept next = kept ring)
    (calls : List γ) {queue : Queue α} {ring : RingBuffer α} (hring : ring.Holds gone queue) :
    ∃ next, Interlude.performAll perform calls ring =
        .ok ((Queue.Meanwhile.performAll answer calls queue).1, next) ∧
      next.Holds gone (Queue.Meanwhile.performAll answer calls queue).2 ∧
      kept next = kept ring := by
  induction calls generalizing queue ring with
  | nil => exact ⟨ring, rfl, hring, rfl⟩
  | cons call rest ih =>
      obtain ⟨mid, hfirst, hmid, hsame⟩ := h call queue ring hring
      obtain ⟨next, hrest, hnext, hkept⟩ := ih hmid
      refine ⟨next, ?_, hnext, hkept.trans hsame⟩
      simp only [Interlude.performAll, hfirst, hrest, ok_bind]
      rfl

theorem ofScript {perform : Face → γ → RingBuffer α → Checked (Answer α × RingBuffer α)}
    {answer : Face → γ → Queue α → Answer α × Queue α}
    (h : ∀ face call queue ring, ring.Holds gone queue → ∃ next,
      perform face call ring = .ok ((answer face call queue).1, next) ∧
        next.Holds gone (answer face call queue).2 ∧ kept next = kept ring)
    (present : Bool) (script : List (List γ)) :
    Follows kept gone (.ofScript present perform script) (.ofScript present answer script) := by
  intro face invocation queue ring hring
  unfold Interlude.ofScript Queue.Meanwhile.ofScript
  cases script[invocation]? with
  | none => exact ⟨ring, rfl, hring, rfl⟩
  | some calls =>
      cases calls with
      | nil => exact ⟨ring, rfl, hring, rfl⟩
      | cons call rest =>
          cases present with
          | false => exact ⟨ring, rfl, hring, rfl⟩
          | true =>
              obtain ⟨next, hrun, hnext, hsame⟩ := performAll (h face) (call :: rest) hring
              simp only [if_true, hrun, ok_bind]
              exact ⟨next, rfl, hnext, hsame⟩

end Follows

/-! ## Whole calls -/

/-- A producer call that finds room does not change the capacity. -/
theorem Queue.shown_of_room [Item α] {queue : Queue α} {call : ProducerCall α} (limit : Nat)
    (meanwhile : Queue.Meanwhile α) (shown : Nat) (hfit : call.needed ≤ queue.free) :
    (queue.writeUnbounded limit meanwhile shown call).2.1 = shown := by
  have hgrow : queue.grow limit call.needed = (.ok none, [], queue) := by
    rw [Queue.grow, if_pos hfit]
  cases call with
  | insert item => exact congrArg (fun answer => Queue.shownAfter shown answer.1) hgrow
  | writeBatch items => exact congrArg (fun answer => Queue.shownAfter shown answer.1) hgrow
  | writeChunked items chunk panicAt =>
      exact congrArg (fun answer => Queue.shownAfter shown answer.1) hgrow
  | insertWith | insertWithBackoff | insertUntil | writeAll | observe => rfl

section calls

variable {interlude : Interlude α} {meanwhile : Queue.Meanwhile α} {ring : RingBuffer α}
  {gone : Nat} {queue : Queue α}

theorem RingBuffer.Holds.writeBounded (h : ring.Holds gone queue) (kept : RingBuffer α → τ)
    (hkept : ∀ a b : RingBuffer α, a.tail = b.tail → kept a = kept b)
    (hfollows : Follows (fun ring => (ring.head, kept ring)) gone interlude meanwhile)
    (hroom : ∀ face invocation queue, queue.free ≤ (meanwhile face invocation queue).2.free)
    (face : Face) (call : ProducerCall α) :
    ∃ next, call.onBounded face interlude ring =
        .ok ((queue.writeBounded face meanwhile call).1, next) ∧
      next.Holds gone (queue.writeBounded face meanwhile call).2 ∧ kept next = kept ring := by
  have hcalm : Follows kept gone interlude meanwhile := hfollows.mono Prod.snd
  cases call with
  | insert item =>
      obtain ⟨next, hrun, hnext, htail⟩ := h.push item
      simp only [ProducerCall.onBounded, hrun, ok_bind]
      exact ⟨next, rfl, hnext, hkept _ _ htail⟩
  | insertWith item panicAt =>
      obtain ⟨next, hrun, hnext, hsame⟩ := pushWith_tracks hkept
        (hfollows.factory face panicAt item .empty queue) (hroom face 0 queue) ring h
      simp only [ProducerCall.onBounded, hrun, ok_bind]
      exact ⟨next, rfl, hnext, hsame⟩
  | insertWithBackoff item =>
      obtain ⟨next, hrun, hnext, htail⟩ := h.pushWithBackoff item
      simp only [ProducerCall.onBounded, hrun, ok_bind]
      exact ⟨next, rfl, hnext, hkept _ _ htail⟩
  | insertUntil item readings =>
      obtain ⟨next, hrun, hnext, htail⟩ := h.pushUntil item readings
      simp only [ProducerCall.onBounded, hrun, ok_bind]
      exact ⟨next, rfl, hnext, hkept _ _ htail⟩
  | writeBatch items =>
      obtain ⟨next, hrun, hnext, htail⟩ := h.writeBatch items
      simp only [ProducerCall.onBounded, hrun, ok_bind]
      exact ⟨next, rfl, hnext, hkept _ _ htail⟩
  | writeChunked items chunk panicAt =>
      obtain ⟨next, hrun, hnext, hsame⟩ := writeChunked_tracks hkept
        (hcalm.callback face panicAt) items chunk .empty queue ring h
      simp only [ProducerCall.onBounded, hrun, ok_bind]
      exact ⟨next, rfl, hnext, hsame⟩
  | writeAll items =>
      obtain ⟨next, hrun, hnext, htail⟩ := h.writeAll items
      simp only [ProducerCall.onBounded, hrun, ok_bind]
      exact ⟨next, rfl, hnext, hkept _ _ htail⟩
  | observe =>
      simp only [ProducerCall.onBounded, h.observe, ok_bind]
      exact ⟨ring, rfl, h, rfl⟩

variable [Item α]

/-- A consumer call. The producer may write meanwhile, also while part of the window is vacant. -/
theorem RingBuffer.Holds.consume (h : ring.Holds 0 queue) (kept : RingBuffer α → τ)
    (hkept : ∀ a b : RingBuffer α, a.head = b.head → kept a = kept b)
    (hfollows : ∀ gone, Follows (fun ring => (ring.tail, kept ring)) gone interlude meanwhile)
    (hfront : ∀ face invocation queue, queue.items <+: (meanwhile face invocation queue).2.items)
    (face : Face) (call : ConsumerCall α) :
    ∃ next, call.perform face interlude ring =
        .ok ((queue.consume face meanwhile call).1, next) ∧
      next.Holds 0 (queue.consume face meanwhile call).2 ∧ kept next = kept ring := by
  have hcalm : Follows kept 0 interlude meanwhile := (hfollows 0).mono Prod.snd
  cases call with
  | remove =>
      obtain ⟨next, hrun, hnext, hhead⟩ := h.pop
      simp only [ConsumerCall.perform, hrun, ok_bind]
      exact ⟨next, rfl, hnext, hkept _ _ hhead⟩
  | removeWithBackoff =>
      obtain ⟨next, hrun, hnext, hhead⟩ := h.popWithBackoff
      simp only [ConsumerCall.perform, hrun, ok_bind]
      exact ⟨next, rfl, hnext, hkept _ _ hhead⟩
  | removeUntil readings =>
      obtain ⟨next, hrun, hnext, hhead⟩ := h.popUntil readings
      simp only [ConsumerCall.perform, hrun, ok_bind]
      exact ⟨next, rfl, hnext, hkept _ _ hhead⟩
  | removeInto target =>
      obtain ⟨next, hrun, hnext, hhead⟩ := h.popInto target
      simp only [ConsumerCall.perform, hrun, ok_bind]
      exact ⟨next, rfl, hnext, hkept _ _ hhead⟩
  | peek =>
      simp only [ConsumerCall.perform, h.peekAt, ok_bind]
      exact ⟨ring, rfl, h, rfl⟩
  | peekAt index =>
      simp only [ConsumerCall.perform, h.peekAt, ok_bind]
      exact ⟨ring, rfl, h, rfl⟩
  | hold index =>
      obtain ⟨next, hrun, hnext, hsame⟩ := hold_tracks
        (fun item ring hring => hcalm.invoke face item .empty hring) index ring h
      simp only [ConsumerCall.perform, hrun, ok_bind]
      exact ⟨next, rfl, hnext, hsame⟩
  | discard count =>
      obtain ⟨next, hrun, hnext, hhead⟩ := h.discard count
      simp only [ConsumerCall.perform, hrun, ok_bind]
      exact ⟨next, rfl, hnext, hkept _ _ hhead⟩
  | discardExact count =>
      obtain ⟨next, hrun, hnext, hhead⟩ := h.discardExact count
      simp only [ConsumerCall.perform, hrun, ok_bind]
      exact ⟨next, rfl, hnext, hkept _ _ hhead⟩
  | clear =>
      obtain ⟨next, hrun, hnext, hhead⟩ := h.clear
      simp only [ConsumerCall.perform, hrun, ok_bind]
      exact ⟨next, rfl, hnext, hkept _ _ hhead⟩
  | drain limit panicAt =>
      obtain ⟨next, hrun, hnext, hsame⟩ := drain_tracks
        (fun gone => (hfollows gone).callback face panicAt)
        (fun item journal queue => hfront face journal.told.size queue) hkept limit .empty queue
        ring h
      simp only [ConsumerCall.perform, hrun, ok_bind]
      exact ⟨next, rfl, hnext, hsame⟩
  | readBatch buffer =>
      obtain ⟨next, hrun, hnext, hhead⟩ := h.readBatch buffer
      simp only [ConsumerCall.perform, hrun, ok_bind]
      exact ⟨next, rfl, hnext, hkept _ _ hhead⟩
  | peekBatch buffer =>
      simp only [ConsumerCall.perform, h.peekBatch, ok_bind]
      exact ⟨ring, rfl, h, rfl⟩
  | readExact buffer =>
      obtain ⟨next, hrun, hnext, hhead⟩ := h.readExact buffer
      simp only [ConsumerCall.perform, hrun, ok_bind]
      exact ⟨next, rfl, hnext, hkept _ _ hhead⟩
  | readChunked buffer chunk panicAt =>
      obtain ⟨next, hrun, hnext, hsame⟩ := readChunked_tracks hkept
        (hcalm.callback face panicAt) buffer chunk .empty h
      simp only [ConsumerCall.perform, hrun, ok_bind]
      exact ⟨next, rfl, hnext, hsame⟩
  | observe =>
      simp only [ConsumerCall.perform, h.observe, ok_bind]
      exact ⟨ring, rfl, h, rfl⟩

/-- A producer call on a growable ring. Only at rest may it have to grow. -/
theorem RingBuffer.Holds.writeUnbounded (h : ring.Holds gone queue) (kept : RingBuffer α → τ)
    (hkept : ∀ a b : RingBuffer α, a.tail = b.tail → kept a = kept b)
    (hfollows : Follows kept gone interlude meanwhile)
    (hroom : ∀ face invocation queue, queue.free ≤ (meanwhile face invocation queue).2.free)
    (limit shown : Nat) (call : ProducerCall α) (hnow : gone = 0 ∨ call.needed ≤ queue.free) :
    ∃ next, call.onGrowable limit interlude ⟨ring, shown⟩ =
        .ok ((queue.writeUnbounded limit meanwhile shown call).1,
          ⟨next, (queue.writeUnbounded limit meanwhile shown call).2.1⟩) ∧
      next.Holds gone (queue.writeUnbounded limit meanwhile shown call).2.2 ∧
      (call.needed ≤ queue.free → kept next = kept ring) := by
  cases call with
  | insert item =>
      obtain ⟨reserved, hreserve, hreserved, hstay⟩ := h.reserve limit 1 shown hnow
      obtain ⟨next, hrun, hnext, htail⟩ := insert_of_reserve item hreserve hreserved
      simp only [ProducerCall.onGrowable, hrun, ok_bind]
      exact ⟨next, rfl, hnext, fun hfit => hstay hfit ▸ hkept _ _ htail⟩
  | writeBatch items =>
      obtain ⟨reserved, hreserve, hreserved, hstay⟩ := h.reserve limit items.size shown hnow
      obtain ⟨next, hrun, hnext, htail⟩ := writeBatch_of_reserve hreserve hreserved
      simp only [ProducerCall.onGrowable, hrun, ok_bind]
      exact ⟨next, rfl, hnext, fun hfit => hstay hfit ▸ hkept _ _ htail⟩
  | writeChunked items chunk panicAt =>
      obtain ⟨reserved, hreserve, hreserved, hstay⟩ := h.reserve limit items.size shown hnow
      obtain ⟨next, hrun, hnext, hsame⟩ := writeChunked_of_reserve hkept
        (fun shown => interlude.callback (.growable shown) panicAt)
        (fun shown => meanwhile.callback (.growable shown) panicAt)
        (hfollows.callback _ panicAt) (fun _ journal queue => hroom _ journal.told.size queue)
        rfl hreserve hreserved chunk .empty
      simp only [ProducerCall.onGrowable, hrun, ok_bind]
      exact ⟨next, rfl, hnext, fun hfit => hstay hfit ▸ hsame⟩
  | observe =>
      simp only [ProducerCall.onGrowable, h.observe, ok_bind]
      exact ⟨ring, rfl, h, fun _ => rfl⟩
  | insertWith item panicAt => exact ⟨ring, rfl, h, fun _ => rfl⟩
  | insertWithBackoff item => exact ⟨ring, rfl, h, fun _ => rfl⟩
  | insertUntil item readings => exact ⟨ring, rfl, h, fun _ => rfl⟩
  | writeAll items => exact ⟨ring, rfl, h, fun _ => rfl⟩

/-! ## Calls made inside calls -/

theorem RingBuffer.Holds.consumeInside (h : ring.Holds 0 queue) (face : Face)
    (call : ConsumerCall α) :
    ∃ next, Channel.consumeInside face call ring =
        .ok ((queue.consumeInside face call).1, next) ∧
      next.Holds 0 (queue.consumeInside face call).2 ∧ next.head = ring.head := by
  obtain ⟨next, hrun, hnext, hhead⟩ := h.consume RingBuffer.head (fun _ _ hsame => hsame)
    (fun _ => Follows.quiet) (fun _ _ queue => List.prefix_refl queue.items) face call
  unfold Channel.consumeInside
  simp only [hrun, hnext.observe, ok_bind]
  exact ⟨next, rfl, hnext, hhead⟩

theorem RingBuffer.Holds.produceInside (h : ring.Holds gone queue) (limit : Nat) (face : Face)
    (call : ProducerCall α) :
    ∃ next, Channel.produceInside limit face call ring =
        .ok ((queue.produceInside limit face call).1, next) ∧
      next.Holds gone (queue.produceInside limit face call).2 ∧ next.tail = ring.tail := by
  have hbounded : ∀ face, ∃ next, call.onBounded face .quiet ring =
      .ok ((queue.writeBounded face .quiet call).1, next) ∧
      next.Holds gone (queue.writeBounded face .quiet call).2 ∧ next.tail = ring.tail := by
    intro face
    exact h.writeBounded RingBuffer.tail (fun _ _ hsame => hsame) Follows.quiet
      (fun _ _ _ => Nat.le_refl _) face call
  unfold Channel.produceInside Queue.produceInside
  cases face with
  | bare =>
      obtain ⟨next, hrun, hnext, htail⟩ := hbounded .bare
      simp only [Channel.wouldBlock, Channel.produce, hrun, Channel.observe, hnext.observe, ok_bind,
        Bool.false_eq_true, if_false]
      exact ⟨next, rfl, hnext, htail⟩
  | fixed =>
      obtain ⟨next, hrun, hnext, htail⟩ := hbounded .fixed
      simp only [Channel.wouldBlock, Channel.produce, hrun, Channel.observe, hnext.observe, ok_bind,
        Bool.false_eq_true, if_false]
      exact ⟨next, rfl, hnext, htail⟩
  | growable shown =>
      have hfree : (queue.observe (.growable shown) .producer).free = queue.free := rfl
      simp only [Channel.wouldBlock, h.observe, hfree, ok_bind, decide_eq_true_eq]
      by_cases hblocked : queue.free < call.needed
      · simp only [hblocked, if_true, Channel.observe, pure, Except.pure, h.observe, ok_bind]
        exact ⟨ring, rfl, h, rfl⟩
      · have hfit : call.needed ≤ queue.free := Nat.not_lt.1 hblocked
        obtain ⟨next, hrun, hnext, htail⟩ := h.writeUnbounded RingBuffer.tail
          (fun _ _ hsame => hsame) Follows.quiet (fun _ _ _ => Nat.le_refl _) limit shown call
          (.inr hfit)
        have hshown : (queue.writeUnbounded limit .quiet shown call).2.1 = shown :=
          Queue.shown_of_room limit .quiet shown hfit
        simp only [hblocked, if_false, Channel.produce, hrun, Channel.observe, hnext.observe,
          ok_bind, hshown]
        exact ⟨next, rfl, hnext, htail hfit⟩

end calls

end RingChannel
