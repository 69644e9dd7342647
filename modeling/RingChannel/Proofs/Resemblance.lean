import RingChannel.Proofs.Linearization
import RingChannel.Proofs.Soundness
import RingChannel.Proofs.Transcript

/-!
# Rings that resemble each other

A ring that keeps the invariant stands for a queue that can be read off it. Two such rings with the
same capacity, unread items and counts stand for the same queue, so no caller can tell them apart,
wherever their cursors and slots are.
-/

namespace RingChannel

variable {α : Type}

namespace RingBuffer

def room (ring : RingBuffer α) : Nat :=
  ring.capacity - ring.live

/-- What a ring at rest stands for. -/
def queue (ring : RingBuffer α) : Queue α :=
  ⟨ring.capacity, ring.contents, ring.config.metered, ring.counters⟩

theorem Holds.eq_queue {ring : RingBuffer α} {queue : Queue α} (h : ring.Holds 0 queue) :
    queue = ring.queue := by
  rcases queue with ⟨capacity, items, metered, counters⟩
  rw [RingBuffer.queue, h.capacity_eq, h.contents_eq, h.metered_eq, h.counters_eq]

namespace Invariant

variable {ring : RingBuffer α} {gone : Nat}

theorem mask_valid (h : ring.Invariant gone) :
    Capacity.isValid (ring.mask.toNat + 1) = true :=
  h.capacity_valid

theorem get?_vacant (h : ring.Invariant gone) {i : Nat} (hi : i < gone ∨ ring.live ≤ i)
    (hin : i ≤ ring.mask.toNat) :
    ring.store.get? (ring.slot (ring.tail + UInt64.ofNat i)) = none := by
  have hlive := h.live_le
  have hmask := h.capacity_eq
  apply Option.not_isSome_iff_eq_none.1
  intro hsome
  rcases (h.occupied_iff _).1 hsome with ⟨j, hgone, hj, hslot⟩
  have hsame : j = i := (Store.slot_inj h.mask_valid (by omega) hin).1 hslot
  omega

theorem get?_outside (h : ring.Invariant gone) {index : Nat} (hindex : ring.mask.toNat < index) :
    ring.store.get? index = none := by
  apply Option.not_isSome_iff_eq_none.1
  intro hsome
  rcases (h.occupied_iff _).1 hsome with ⟨j, -, -, hslot⟩
  have hlt : ring.slot (ring.tail + UInt64.ofNat j) < ring.mask.toNat + 1 :=
    Store.slot_lt h.mask_valid ring.tail j
  omega

/-- A ring that keeps the invariant holds a queue. Any items can have been in its vacant front. -/
theorem exists_holds (h : ring.Invariant gone) {front : List α} (hfront : front.length = gone) :
    ∃ queue, ring.Holds gone queue := by
  have hsome : ∀ i : Fin ring.live, ¬ i.val < front.length →
      (ring.store.get? (ring.slot (ring.tail + UInt64.ofNat i))).isSome = true :=
    fun i hi => (h.occupied_iff _).2 ⟨i, by omega, i.isLt, rfl⟩
  let items : List α := List.ofFn fun i =>
    if hi : i.val < front.length then front[i] else (ring.store.get? _).get (hsome i hi)
  have hlength : items.length = ring.live := List.length_ofFn
  refine ⟨⟨ring.capacity, items, ring.config.metered, ring.counters⟩, ?_, rfl, hlength.symm, ?_,
    ?_, rfl, rfl⟩
  · refine ⟨h.mask_valid, h.size_eq, fun i hi => ?_, fun index hindex => h.get?_outside hindex⟩
    by_cases hgone : i < gone
    · rw [if_pos hgone]
      exact h.get?_vacant (.inl hgone) hi
    · rw [if_neg hgone]
      by_cases hwindow : i < ring.live
      · have hbehind : ¬ i < front.length := by omega
        rw [List.getElem?_eq_getElem (hlength ▸ hwindow), List.getElem_ofFn, dif_neg hbehind]
        exact (Option.some_get _).symm
      · rw [List.getElem?_eq_none (hlength ▸ Nat.not_lt.1 hwindow)]
        exact h.get?_vacant (.inr (Nat.not_lt.1 hwindow)) hi
  · rw [hlength]
    exact h.live_le
  · rw [hlength]
    exact h.gone_le

/-- It is the queue that is read off the ring. -/
theorem holds (h : ring.Invariant 0) : ring.Holds 0 ring.queue := by
  rcases h.exists_holds List.length_nil with ⟨queue, hqueue⟩
  rw [← hqueue.eq_queue]
  exact hqueue

theorem free_queue (h : ring.Invariant 0) : ring.queue.free = ring.room := by
  rw [room, h.holds.live_eq]
  rfl

theorem free_eq (h : ring.Invariant gone) : ring.free = .ok ring.room := by
  rw [free_eq_subtract]
  exact subtract_of_le h.live_le

end Invariant

structure Resembles (a b : RingBuffer α) : Prop where
  capacity_eq : a.capacity = b.capacity
  contents_eq : a.contents = b.contents
  metered_eq : a.config.metered = b.config.metered
  counters_eq : a.counters = b.counters

theorem Resembles.queue_eq {a b : RingBuffer α} (h : a.Resembles b) : a.queue = b.queue := by
  rw [queue, queue, h.capacity_eq, h.contents_eq, h.metered_eq, h.counters_eq]

end RingBuffer

namespace Session

def model (session : Session α) : QueueSession α :=
  ⟨session.channel.face, session.channel.ring.queue, session.limit, session.producing,
    session.consuming⟩

theorem holds_model {session : Session α} (h : session.channel.ring.Invariant 0) :
    session.Holds session.model :=
  ⟨rfl, h.holds, rfl, rfl, rfl⟩

variable [Item α]

theorem Reachable.invariant {session : Session α} (h : session.Reachable) :
    session.channel.ring.Invariant 0 := by
  rcases h.holds with ⟨model, hmodel⟩
  exact hmodel.ring.invariant

/-- Nothing that a caller learns from now on tells two rings apart that resemble each other. -/
theorem transcript_of_resembles (session : Session α) {a b : RingBuffer α} (ha : a.Invariant 0)
    (hb : b.Invariant 0) (h : a.Resembles b) (steps : List (Step α)) :
    (session.withRing a).transcript steps = (session.withRing b).transcript steps := by
  have hmodel : (session.withRing a).model = (session.withRing b).model := by
    unfold model withRing
    rw [h.queue_eq]
  have hleft : (session.withRing a).Holds (session.withRing a).model := holds_model ha
  have hright : (session.withRing b).Holds (session.withRing b).model := holds_model hb
  rw [hleft.transcript_eq, hright.transcript_eq, hmodel]

end Session

end RingChannel
