import RingChannel.Proofs.Queue.Calls
import RingChannel.Proofs.Refinement.Grow

/-!
# Calls that reserve room

On a growable queue the calls that write make sure of all their room before they write anything.
How that goes depends on three numbers only: how much room is needed in all, the capacity, and the
memory. What the call answers follows from it.
-/

namespace RingChannel

variable {α : Type}

namespace ProducerCall

/-- On a growable ring the call reserves its room before it writes. -/
def reserves : ProducerCall α → Bool
  | .insert _ | .writeBatch _ | .writeChunked _ _ _ => true
  | .insertWith _ _ | .insertWithBackoff _ | .insertUntil _ _ | .writeAll _ | .observe => false

def panicAt : ProducerCall α → Option Nat
  | .insertWith _ panicAt | .writeChunked _ _ panicAt => panicAt
  | .insert _ | .insertWithBackoff _ | .insertUntil _ _ | .writeBatch _ | .writeAll _ | .observe =>
      none

def refusal (error : RingError) : ProducerCall α → Reply α
  | .insert item => .insertedGrowing (.error ⟨item, error⟩)
  | .writeBatch _ => .wroteGrowing (.error error)
  | .writeChunked _ _ _ => .wroteChunksGrowing (.returned (.error error)) []
  | .insertWith _ _ | .insertWithBackoff _ | .insertUntil _ _ | .writeAll _ | .observe =>
      .unsupported

end ProducerCall

namespace Reply

def growth : Reply α → Option (Option Growth)
  | .insertedGrowing (.ok growth) | .wroteGrowing (.ok growth) => some growth
  | .wroteChunksGrowing (.returned (.ok growth)) _ => some growth
  | _ => none

/-- The call was broken off by code of its caller. That runs only once there is room. -/
def brokenOff : Reply α → Bool
  | .wroteChunksGrowing (.panicked _) _ => true
  | _ => false

def reserved (reply : Reply α) : Bool :=
  reply.growth.isSome || reply.brokenOff

@[simp] theorem growth_refusal (error : RingError) (call : ProducerCall α) :
    (call.refusal error).growth = none := by
  cases call <;> rfl

@[simp] theorem reserved_refusal (error : RingError) (call : ProducerCall α) :
    (call.refusal error).reserved = false := by
  cases call <;> rfl

end Reply

namespace Queue

variable [Item α] {queue : Queue α}

/-! ## How a reservation goes -/

/-- What keeps a queue from holding `total` items: no word or no memory for the least power of two
that is enough. -/
def Stuck (α : Type) [Item α] (limit total : Nat) : Prop :=
  1 <<< 63 < total ∨ limit < Capacity.roundUp total * Item.slotBytes α

def shortage (queue : Queue α) (total : Nat) : RingError :=
  .growthFailed queue.capacity
    (if 1 <<< 63 < total then Capacity.wordMax else Capacity.roundUp total)

theorem grow_of_room (limit : Nat) {needed : Nat}
    (hroom : queue.items.length + needed ≤ queue.capacity) :
    queue.grow limit needed = (.ok none, [], queue) := by
  unfold grow
  rw [if_pos (by unfold free; omega)]

def reserved (limit : Nat) (call : ProducerCall α) (queue : Queue α) : Queue α :=
  if call.reserves then (queue.grow limit call.needed).2.2 else queue

theorem reserved_of_room {call : ProducerCall α} (limit : Nat) (hroom : call.needed ≤ queue.free) :
    queue.reserved limit call = queue := by
  unfold reserved grow
  rw [if_pos hroom]
  split <;> rfl

variable {limit needed total : Nat} (hvalid : Capacity.isValid queue.capacity = true)
  (hlength : queue.items.length ≤ queue.capacity)
  (htotal : queue.items.length + needed = total) (hshort : queue.capacity < total)

include hvalid hlength htotal hshort

theorem grow_of_stuck (hstuck : Stuck α limit total) :
    queue.grow limit needed =
      (.error (queue.shortage total), [.growthFailed (queue.shortage total) needed], queue) := by
  subst htotal
  unfold grow shortage
  rw [if_neg (by unfold free; omega), Capacity.growthTarget_eq hvalid hshort]
  by_cases hword : 1 <<< 63 < queue.items.length + needed
  · simp only [hword, Nat.not_le.2 hword, if_true, if_false]
  · have hmemory := Nat.not_le.2 (hstuck.resolve_left hword)
    simp only [hword, Nat.not_lt.1 hword, if_true, if_false, regrow, Store.fits, hmemory,
      decide_false, Bool.false_eq_true]

theorem grow_of_not_stuck (hfree : ¬ Stuck α limit total) :
    queue.grow limit needed =
      (.ok (some ⟨queue.capacity, Capacity.roundUp total⟩),
        [.grew ⟨queue.capacity, Capacity.roundUp total⟩],
        record .growth { queue with capacity := Capacity.roundUp total }) := by
  subst htotal
  rw [Stuck, not_or, Nat.not_lt, Nat.not_lt] at hfree
  unfold grow
  rw [if_neg (by unfold free; omega), Capacity.growthTarget_eq hvalid hshort]
  simp only [hfree.1, hfree.2, if_true, regrow, Store.fits, decide_true]

omit hvalid hlength htotal hshort

/-! ## What the call answers -/

variable {call : ProducerCall α} (shown : Nat) (meanwhile : Meanwhile α)

theorem writeUnbounded_of_error (hcall : call.reserves = true) {error : RingError}
    (hgrow : (queue.grow limit call.needed).1 = .error error) :
    queue.writeUnbounded limit meanwhile shown call =
      (⟨call.refusal error, [], (queue.grow limit call.needed).2.1, []⟩, shown,
        (queue.grow limit call.needed).2.2) := by
  cases call with
  | insert item =>
      simp only [ProducerCall.needed] at hgrow ⊢
      simp only [writeUnbounded, insertGrowing]
      generalize queue.grow limit 1 = answer at hgrow ⊢
      obtain ⟨result, events, next⟩ := answer
      cases hgrow
      rfl
  | writeBatch items =>
      simp only [ProducerCall.needed] at hgrow ⊢
      simp only [writeUnbounded, writeGrowing]
      generalize queue.grow limit items.size = answer at hgrow ⊢
      obtain ⟨result, events, next⟩ := answer
      cases hgrow
      rfl
  | writeChunked items chunk panicAt =>
      simp only [ProducerCall.needed] at hgrow ⊢
      simp only [writeUnbounded, writeChunkedGrowing]
      generalize queue.grow limit items.size = answer at hgrow ⊢
      obtain ⟨result, events, next⟩ := answer
      cases hgrow
      rfl
  | insertWith | insertWithBackoff | insertUntil | writeAll | observe => cases hcall

/-- A call that has its room says so. If it comes back it comes back with the growth, and it reports
nothing else. -/
theorem writeUnbounded_of_ok (hcall : call.reserves = true) {growth : Option Growth}
    (hgrow : (queue.grow limit call.needed).1 = .ok growth) :
    (queue.writeUnbounded limit meanwhile shown call).1.reply.reserved = true ∧
      (∀ result ∈ (queue.writeUnbounded limit meanwhile shown call).1.reply.growth,
        result = growth) ∧
      (queue.writeUnbounded limit meanwhile shown call).1.events =
        (queue.grow limit call.needed).2.1 := by
  cases call with
  | insert item =>
      simp only [ProducerCall.needed] at hgrow ⊢
      simp only [writeUnbounded, insertGrowing]
      generalize queue.grow limit 1 = answer at hgrow ⊢
      obtain ⟨result, events, next⟩ := answer
      cases hgrow
      exact ⟨rfl, fun _ hresult => (Option.some.inj hresult).symm, rfl⟩
  | writeBatch items =>
      simp only [ProducerCall.needed] at hgrow ⊢
      simp only [writeUnbounded, writeGrowing]
      generalize queue.grow limit items.size = answer at hgrow ⊢
      obtain ⟨result, events, next⟩ := answer
      cases hgrow
      exact ⟨rfl, fun _ hresult => (Option.some.inj hresult).symm, rfl⟩
  | writeChunked items chunk panicAt =>
      simp only [ProducerCall.needed] at hgrow ⊢
      simp only [writeUnbounded, writeChunkedGrowing]
      generalize queue.grow limit items.size = answer at hgrow ⊢
      obtain ⟨result, events, next⟩ := answer
      cases hgrow
      simp only
      split
      · exact ⟨rfl, by simp [Reply.growth], rfl⟩
      · exact ⟨rfl, fun _ hresult => (Option.some.inj hresult).symm, rfl⟩
  | insertWith | insertWithBackoff | insertUntil | writeAll | observe => cases hcall

theorem shown_writeUnbounded (limit : Nat) (queue : Queue α) (hcall : call.reserves = true) :
    (queue.writeUnbounded limit meanwhile shown call).2.1 =
      shownAfter shown (queue.grow limit call.needed).1 := by
  cases call with
  | insert | writeBatch | writeChunked => rfl
  | insertWith | insertWithBackoff | insertUntil | writeAll | observe => cases hcall

omit [Item α] in
theorem writeChunked_returned {κ : Type} {reaction : Reaction α Nat κ}
    (hproceed : ∀ count memory queue, (reaction count memory queue).1 = .proceed)
    (items : Block α) (chunk : Nat) (memory : κ) (queue : Queue α) :
    ∃ total rest, queue.writeChunked items chunk reaction memory = (.returned total, rest) := by
  have hrounds : ∀ chunk written memory (queue : Queue α), ∃ total rest,
      queue.writeRounds items chunk reaction written memory = (.returned total, rest) := by
    intro chunk written memory queue
    fun_induction Queue.writeRounds items chunk reaction written memory queue with
    | case1 written memory queue count hcount => exact ⟨written, _, rfl⟩
    | case2 written memory queue count hcount memory' queue' hrun ih => exact ih
    | case3 written memory queue count hcount memory' queue' hrun =>
        have hsignal := congrArg Prod.fst hrun
        rw [hproceed] at hsignal
        cases hsignal
  obtain ⟨total, rest, hrun⟩ :=
    hrounds (RingBuffer.chunkLength chunk items.size) 0 memory queue
  unfold writeChunked
  rw [hrun]
  exact ⟨total, _, rfl⟩

theorem brokenOff_writeUnbounded (limit : Nat) (queue : Queue α) (hpanic : call.panicAt = none) :
    (queue.writeUnbounded limit meanwhile shown call).1.reply.brokenOff = false := by
  cases call with
  | insert | writeBatch | insertWith | insertWithBackoff | insertUntil | writeAll | observe => rfl
  | writeChunked items chunk panicAt =>
      cases hpanic
      simp only [writeUnbounded, writeChunkedGrowing]
      generalize queue.grow limit items.size = answer
      obtain ⟨result, events, next⟩ := answer
      cases result with
      | error cause => rfl
      | ok growth =>
          let face : Face := .growable (shownAfter shown (.ok growth))
          have hproceed : ∀ count (journal : Journal α Nat) queue,
              (meanwhile.callback face none count journal queue).1 = .proceed := fun _ _ _ => rfl
          obtain ⟨total, rest, hrun⟩ := writeChunked_returned hproceed items chunk .empty next
          simp only [face] at hrun
          simp only [hrun]
          rfl

/-- A call that reserves nothing leaves a queue that grows as it is. -/
theorem writeUnbounded_of_not_reserves (limit : Nat) (queue : Queue α)
    (hcall : call.reserves = false) :
    ∃ reply : Reply α, queue.writeUnbounded limit meanwhile shown call =
        (.plain reply, shown, queue) ∧ reply.growth = none ∧ reply.reserved = false := by
  cases call with
  | insert | writeBatch | writeChunked => cases hcall
  | insertWith | insertWithBackoff | insertUntil | writeAll => exact ⟨.unsupported, rfl, rfl, rfl⟩
  | observe => exact ⟨_, rfl, rfl, rfl⟩

end Queue

end RingChannel
