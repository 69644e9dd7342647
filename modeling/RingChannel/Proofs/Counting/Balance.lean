import RingChannel.Proofs.Counting.Sightings

/-!
# The counters account for every item

All that was ever inserted has been removed or discarded since, or is unread, or is lost: a call
that is broken off after it has taken items out counts none of them. The counters wrap, and the
equation with them. It holds wherever the channel is seen, after each step and at each moment
inside a call at which its caller's code asks for it.
-/

namespace RingChannel

open Sighting

variable {α : Type}

/-- The counters account for the unread items when `lost` items have gone uncounted. -/
structure Status.Balanced (lost : Nat) (status : Status) : Prop where
  inserted_eq : status.counters.inserted =
    status.counters.removed + status.counters.discarded + UInt64.ofNat status.length +
      UInt64.ofNat lost
  length_eq : status.length =
    (status.counters.inserted - status.counters.removed - status.counters.discarded -
      UInt64.ofNat lost).toNat

namespace Queue

structure Reckoned (lost : Nat) (queue : Queue α) : Prop where
  metered_eq : queue.metered = true
  valid : Capacity.isValid queue.capacity = true
  length_le : queue.items.length ≤ queue.capacity
  inserted_eq : queue.counters.inserted =
    queue.counters.removed + queue.counters.discarded + UInt64.ofNat queue.items.length +
      UInt64.ofNat lost

theorem reckoned_empty {capacity : Nat} (hvalid : Capacity.isValid capacity = true) :
    (empty capacity true : Queue α).Reckoned 0 :=
  ⟨rfl, hvalid, Nat.zero_le _, rfl⟩

namespace Reckoned

variable {lost : Nat} {queue next : Queue α}

theorem append (h : queue.Reckoned lost) {items : List α} (hfit : items.length ≤ queue.free) :
    (queue.append items).Reckoned lost := by
  rcases queue with ⟨capacity, present, metered, counters⟩
  rcases h with ⟨hmetered, hvalid, hle, hinserted⟩
  cases hmetered
  refine ⟨rfl, hvalid, ?_, ?_⟩
  · simp only [free] at hfit hle
    simp only [items_append, capacity_append, List.length_append]
    omega
  · simp only [Queue.append, Queue.record, Counters.add, if_true, List.length_append,
      UInt64.ofNat_add] at hinserted ⊢
    grind

theorem record_rejected (h : queue.Reckoned lost) (count : Nat) :
    (queue.record (.rejected count)).Reckoned lost := by
  rcases queue with ⟨capacity, items, metered, counters⟩
  rcases h with ⟨hmetered, hvalid, hle, hinserted⟩
  cases hmetered
  exact ⟨rfl, hvalid, hle, hinserted⟩

theorem grow (h : queue.Reckoned lost) {capacity : Nat}
    (hvalid : Capacity.isValid capacity = true) (hlarger : queue.capacity < capacity) :
    (record .growth { queue with capacity := capacity }).Reckoned lost := by
  rcases queue with ⟨present, items, metered, counters⟩
  rcases h with ⟨hmetered, -, hle, hinserted⟩
  cases hmetered
  exact ⟨rfl, hvalid, Nat.le_trans hle (Nat.le_of_lt hlarger), hinserted⟩

theorem behead (h : queue.Reckoned lost) {count : Nat} (hle : count ≤ queue.items.length) :
    (queue.behead count).Reckoned (lost + count) := by
  rcases h with ⟨hmetered, hvalid, hlength, hinserted⟩
  refine ⟨hmetered, hvalid, ?_, ?_⟩
  · rw [items_behead, capacity_behead, List.length_drop]
    exact Nat.le_trans (Nat.sub_le _ _) hlength
  · have hsplit : queue.items.length = queue.items.length - count + count := by omega
    show queue.counters.inserted = _
    rw [hinserted, items_behead, List.length_drop, UInt64.ofNat_add]
    rw [hsplit, UInt64.ofNat_add, ← hsplit]
    simp only [Queue.behead]
    grind

theorem record_taken {count : Nat} (h : queue.Reckoned (lost + count)) {tally : Tally}
    (htally : tally = .removed count ∨ tally = .discarded count) :
    (queue.record tally).Reckoned lost := by
  rcases queue with ⟨capacity, items, metered, counters⟩
  rcases h with ⟨hmetered, hvalid, hle, hinserted⟩
  cases hmetered
  rw [UInt64.ofNat_add] at hinserted
  rcases htally with rfl | rfl
  · refine ⟨rfl, hvalid, hle, ?_⟩
    simp only [Queue.record, Counters.add, if_true] at hinserted ⊢
    grind
  · refine ⟨rfl, hvalid, hle, ?_⟩
    simp only [Queue.record, Counters.add, if_true] at hinserted ⊢
    grind

theorem releases (h : queue.Reckoned lost) {count : Nat} (hreleases : queue.Releases count next) :
    next.Reckoned (lost + count) := by
  cases hreleases with
  | removed count hle => exact (h.behead hle).record_taken (.inl rfl)
  | discarded count hle => exact (h.behead hle).record_taken (.inr rfl)
  | lost count hle => exact h.behead hle

theorem balanced (h : queue.Reckoned lost) (face : Face) (role : Role) :
    (queue.observe face role).status.Balanced lost := by
  have hcounters : (queue.observe face role).status.counters = queue.counters :=
    if_pos h.metered_eq
  have hlength : (queue.observe face role).status.length = queue.items.length := rfl
  have hlt : queue.items.length < UInt64.size := by
    have hvalid := h.valid
    have hle := h.length_le
    simp only [Capacity.isValid, Bool.and_eq_true, decide_eq_true_eq] at hvalid
    exact Nat.lt_of_le_of_lt hle hvalid.1
  constructor
  · rw [hcounters, hlength]
    exact h.inserted_eq
  · -- a valid capacity fits a word, so the length is known from its word
    have hword : UInt64.ofNat queue.items.length = queue.counters.inserted -
        queue.counters.removed - queue.counters.discarded - UInt64.ofNat lost := by
      have hinserted := h.inserted_eq
      grind
    rw [hcounters, hlength, ← hword, UInt64.toNat_ofNat', Nat.mod_eq_of_lt hlt]

end Reckoned

theorem watched_reckoned (growing : Bool) :
    Watched growing (Reckoned (α := α)) Status.Balanced where
  shows := by
    rintro lost queue status h ⟨face, role, rfl⟩
    exact h.balanced face role
  append := fun hfit h => h.append hfit
  reject := fun _ _ _ count h => h.record_rejected count
  releases := fun hreleases h => h.releases hreleases
  grow := fun hvalid hlarger h => h.grow hvalid hlarger

end Queue

namespace Session

variable [Item α]

/-- From a new ring that counts, the counters account for all items in whatever is seen: after each
step, and at each moment inside a call at which its caller asks. What is lost by then is what calls
had taken out when they were broken off. Where nothing is lost the counters tell how many items are
unread. -/
theorem run_balanced {limit capacity : Nat} {config : Config} {cursor : UInt64}
    {ring : RingBuffer α} (hring : RingBuffer.create limit capacity config cursor = .ok ring)
    (hmetered : config.metered = true) (kind : Kind) (bytes : Nat) {steps : List (Step α)}
    (hsteps : (around kind bytes ring).AdmitsAll steps) :
    ∃ answers last, (around kind bytes ring).run steps = .ok (answers, last) ∧
      AllSeen Status.Balanced 0 (answers.flatMap StepAnswer.sightings) ∧
      (allLost (answers.flatMap StepAnswer.sightings) = 0 →
        ∀ sighting ∈ answers.flatMap StepAnswer.sightings, ∀ status ∈ sighting.seen,
          status.length = (status.counters.inserted - status.counters.removed -
            status.counters.discarded).toNat) := by
  have hholds := holds_around hring kind bytes
  rcases RingBuffer.create_eq_ok_iff.1 ⟨ring, hring⟩ with ⟨hvalid, -⟩
  rcases hholds.run hsteps with ⟨last, hrun, -⟩
  have hempty : (QueueSession.around kind bytes capacity config.metered :
      QueueSession α).queue.Reckoned 0 := by
    rw [hmetered]
    exact Queue.reckoned_empty hvalid
  have hseen := (hholds.run_watch (Queue.watched_reckoned _) 0 rfl hsteps hempty).seen
  refine ⟨_, last, hrun, hseen, ?_⟩
  intro hnone sighting hsighting status hstatus
  rcases hseen.exists_lost sighting hsighting with ⟨more, hle, hbalanced⟩
  rw [hnone, Nat.le_zero] at hle
  have hlength := (hbalanced status hstatus).length_eq
  rw [hle, show UInt64.ofNat (0 + 0) = 0 from rfl, UInt64.sub_zero] at hlength
  exact hlength

/-- A discard inside a chunked write, and then a drain, are broken off and lose an item each, on a
bare ring whose cursors wrap. -/
theorem run_balanced_broken :
    let ring : RingBuffer Tracked :=
      ⟨18446744073709551615, 18446744073709551615, 3, .empty 4, .counting, .zero⟩
    let steps : List (Step Tracked) :=
      [.produce (.writeChunked (.ofArray #[⟨1, true⟩, ⟨2, false⟩]) 1 none) [[.discard 2]],
        .produce (.insert ⟨3, false⟩) [],
        .consume (.drain 2 (some 0)) [[.insert ⟨4, false⟩, .observe]]]
    RingBuffer.create 64 4 .counting 18446744073709551615 = .ok ring ∧
      (around .bare 64 ring).AdmitsAll steps ∧
      ∃ answers last, (around .bare 64 ring).run steps = .ok (answers, last) ∧
        AllSeen Status.Balanced 0 (answers.flatMap StepAnswer.sightings) ∧
        allLost (answers.flatMap StepAnswer.sightings) = 2 := by
  intro ring steps
  have hring : RingBuffer.create 64 4 .counting 18446744073709551615 = .ok ring := rfl
  have hsteps : (around .bare 64 ring).AdmitsAll steps :=
    admitsAll_of_forall (by simp [steps, Admits]) _
  have hlost : ((around .bare 64 ring).run steps).toOption.map
      (fun run => allLost (run.1.flatMap StepAnswer.sightings)) = some 2 := by
    decide +kernel
  rcases run_balanced hring rfl .bare 64 hsteps with ⟨answers, last, hrun, hbalanced, -⟩
  rw [hrun] at hlost
  exact ⟨hring, hsteps, answers, last, hrun, hbalanced, Option.some.inj hlost⟩

end Session

end RingChannel
