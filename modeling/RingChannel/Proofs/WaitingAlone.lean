import RingChannel.Proofs.LazyInsert

/-!
# Waiting alone

Whoever waits for a slot or for an item while nobody else acts has the answer with the first
attempt: none of those that follow finds the ring any other way. So a waiting call that can be
served is the plain call, and one that cannot be served ends when its patience does. An insert has
its item back then, and each of its attempts is counted; a removal has done nothing.
-/

namespace RingChannel

variable {α : Type}

namespace RingBuffer

theorem record_rejected_zero (ring : RingBuffer α) : ring.record (.rejected 0) = ring := by
  have hadd : ring.counters.add (.rejected 0) = ring.counters := by simp [Counters.add]
  unfold record
  rw [hadd]
  split <;> rfl

theorem record_rejected_succ (ring : RingBuffer α) (n : Nat) :
    (ring.record (.rejected n)).record (.rejected 1) = ring.record (.rejected (n + 1)) := by
  cases hmetered : ring.config.metered <;>
    simp [record, hmetered, Counters.add, UInt64.ofNat_add, UInt64.add_assoc]

variable {ring : RingBuffer α} {gone : Nat}

theorem request_of_empty (hempty : ring.live = 0) : request ring = .ok (.vain ring) := by
  unfold request pop
  simp only [consumerWindow_eq, hempty, if_true, ok_bind]

theorem attempts_of_empty (hempty : ring.live = 0) (more : Nat) :
    attempts request more ring = .ok (List.replicate (more + 1) ring, .vain ring) := by
  have hvain := attempts_of_vain (fun _ => ring) (fun _ => request_of_empty hempty) more
  rw [List.map_const', List.length_range] at hvain
  exact hvain

namespace Invariant

/-- An insert into a full ring is in vain. The next one has the same item, and what it finds has
counted one refusal more. -/
theorem offer_of_full (h : ring.Invariant gone) (hfull : ring.room = 0) (item : α) (n : Nat) :
    offer (item, ring.record (.rejected n)) =
      .ok (.vain (item, ring.record (.rejected (n + 1)))) := by
  have hfree : (ring.record (.rejected n)).free = .ok 0 := by
    rw [← hfull, ← h.free_eq]
    simp only [free_eq_subtract, capacity_record, live_record]
  unfold offer push producerWindow
  simp only [hfree, ok_bind, if_true, record_rejected_succ]

theorem attempts_of_full (h : ring.Invariant gone) (hfull : ring.room = 0) (item : α)
    (more : Nat) :
    attempts offer more (item, ring) =
      .ok ((List.range (more + 1)).map fun n => (item, ring.record (.rejected n)),
        .vain (item, ring.record (.rejected (more + 1)))) := by
  have hvain := attempts_of_vain (fun n => (item, ring.record (.rejected n)))
    (h.offer_of_full hfull item) more
  rw [record_rejected_zero] at hvain
  exact hvain

theorem offer_of_room (h : ring.Invariant 0) (hroom : ring.room ≠ 0) (item : α) :
    ∃ next, ring.push item = .ok (none, next) ∧ next.Invariant 0 ∧
      offer (item, ring) = .ok (.well next) := by
  rw [← h.free_queue] at hroom
  obtain ⟨next, hpush, hnext, -⟩ := h.holds.push_of_room hroom item
  refine ⟨next, hpush, hnext.invariant, ?_⟩
  simp only [offer, hpush, ok_bind]

theorem request_of_readable (h : ring.Invariant 0) (hreadable : ring.live ≠ 0) :
    ∃ item next, ring.pop = .ok (some item, next) ∧ next.Invariant 0 ∧
      request ring = .ok (.well (item, next)) := by
  obtain ⟨next, hpop, hnext, -⟩ := h.holds.pop
  cases hfirst : ring.queue.pop.1 with
  | none =>
      have hnil : ring.contents = [] := List.head?_eq_none_iff.1 hfirst
      have hlive := h.holds.live_eq
      rw [queue, hnil] at hlive
      exact absurd hlive hreadable
  | some item =>
      rw [hfirst] at hpop
      refine ⟨item, next, hpop, hnext.invariant, ?_⟩
      simp only [request, hpop, ok_bind]

end Invariant

end RingBuffer

namespace Session

open RingBuffer

/-- What inserts that wait come to in a session that nobody else acts in. With a free slot the first
attempt stores the item. Without one there are twelve, each with the item that came back, and twelve
refusals count. Behind the deadline there is one attempt. -/
structure InsertWaits (session : Session α) [Item α] (item : α)
    (script : List (List (ConsumerCall α))) : Prop where
  backoff_eq : session.channel.ring.pushWithBackoff item =
    (attempts offer 11 (item, session.channel.ring)).map fun made => handedBack made.2
  deadline_eq : ∀ readings, pushUntil item readings session.channel.ring =
    (attempts offer readings (item, session.channel.ring)).map fun made => handedBack made.2
  room : session.channel.ring.room ≠ 0 → ∃ next answer,
    attempts offer 11 (item, session.channel.ring) =
      .ok ([(item, session.channel.ring)], .well next) ∧
    session.step (.produce (.insert item) script) = .ok (answer, session.withRing next) ∧
    session.step (.produce (.insertWithBackoff item) script) =
      .ok (answer, session.withRing next) ∧
    answer.reply = .called (.inserted none) []
  full : session.channel.ring.room = 0 → ∃ status,
    attempts offer 11 (item, session.channel.ring) =
      .ok ((List.range 12).map fun n => (item, session.channel.ring.record (.rejected n)),
        .vain (item, session.channel.ring.record (.rejected 12))) ∧
    session.step (.produce (.insertWithBackoff item) script) =
      .ok (⟨.called (.inserted (some item)) [], status, [], []⟩,
        session.withRing (session.channel.ring.record (.rejected 12)))
  late : ∃ last answer next,
    attempts offer 0 (item, session.channel.ring) = .ok ([(item, session.channel.ring)], last) ∧
    session.step (.produce (.insert item) script) = .ok (answer, next) ∧
    session.step (.produce (.insertUntil item 0) script) = .ok (answer, next)

/-- What removals that wait come to in a session that nobody else acts in. With an unread item the
first attempt takes it. Without one there are twelve, and nothing has changed. -/
structure RemoveWaits (session : Session α) [Item α] (script : List (List (ProducerCall α))) :
    Prop where
  backoff_eq : session.channel.ring.popWithBackoff =
    (attempts request 11 session.channel.ring).map fun made => handedOut made.2
  deadline_eq : ∀ readings, popUntil readings session.channel.ring =
    (attempts request readings session.channel.ring).map fun made => handedOut made.2
  readable : session.channel.ring.live ≠ 0 → ∃ item next answer,
    attempts request 11 session.channel.ring =
      .ok ([session.channel.ring], .well (item, next)) ∧
    session.step (.consume .remove script) = .ok (answer, session.withRing next) ∧
    session.step (.consume .removeWithBackoff script) = .ok (answer, session.withRing next) ∧
    answer.reply = .called (.removed (some item)) []
  empty : session.channel.ring.live = 0 → ∃ status,
    attempts request 11 session.channel.ring =
      .ok (List.replicate 12 session.channel.ring, .vain session.channel.ring) ∧
    session.step (.consume .removeWithBackoff script) =
      .ok (⟨.called (.removed none) [], status, [], []⟩, session)
  late : ∃ last answer next,
    attempts request 0 session.channel.ring = .ok ([session.channel.ring], last) ∧
    session.step (.consume .remove script) = .ok (answer, next) ∧
    session.step (.consume (.removeUntil 0) script) = .ok (answer, next)

variable [Item α] {session : Session α}

theorem step_of_rejected (hproducing : session.producing = true)
    (hface : session.channel.face = .fixed) {next : RingBuffer α} (hnext : next.Invariant 0)
    (rejected : Option α) {call : ProducerCall α} {script : List (List (ConsumerCall α))}
    (hperform : call.onBounded session.channel.face (session.producerInterlude script)
      session.channel.ring = .ok (.plain (.inserted rejected), next)) :
    session.step (.produce call script) =
      .ok (⟨.called (.inserted rejected) [], (session.withRing next).model.status, [], []⟩,
        session.withRing next) :=
  step_of_onBounded hproducing (.inr hface) hnext hperform

theorem step_of_removed (hconsuming : session.consuming = true) {next : RingBuffer α}
    (hnext : next.Invariant 0) (removed : Option α) {call : ConsumerCall α}
    {script : List (List (ProducerCall α))}
    (hperform : call.perform session.channel.face (session.consumerInterlude script)
      session.channel.ring = .ok (.plain (.removed removed), next)) :
    session.step (.consume call script) =
      .ok (⟨.called (.removed removed) [], (session.withRing next).model.status, [], []⟩,
        session.withRing next) :=
  step_of_perform hconsuming hnext hperform

theorem insertWaits (h : session.channel.ring.Invariant 0)
    (hface : session.channel.face = .fixed) (hproducing : session.producing = true) (item : α)
    (script : List (List (ConsumerCall α))) : session.InsertWaits item script where
  backoff_eq := pushWithBackoff_eq item _
  deadline_eq readings := pushUntil_eq item readings _
  room hroom := by
    obtain ⟨next, hpush, hnext, hoffer⟩ := h.offer_of_room hroom item
    have hmade := attempts_of_well hoffer 11
    have hbackoff : session.channel.ring.pushWithBackoff item = .ok (none, next) := by
      rw [pushWithBackoff_eq, hmade]
      rfl
    refine ⟨next, _, hmade, step_of_rejected hproducing hface hnext none ?_,
      step_of_rejected hproducing hface hnext none ?_, rfl⟩
    · simp only [ProducerCall.onBounded, hpush, ok_bind]
    · simp only [ProducerCall.onBounded, hbackoff, ok_bind]
  full hfull := by
    have hmade := h.attempts_of_full hfull item 11
    have hbackoff : session.channel.ring.pushWithBackoff item =
        .ok (some item, session.channel.ring.record (.rejected 12)) := by
      rw [pushWithBackoff_eq, hmade]
      rfl
    refine ⟨_, hmade,
      step_of_rejected hproducing hface (h.holds.record _).invariant (some item) ?_⟩
    simp only [ProducerCall.onBounded, hbackoff, ok_bind]
  late := by
    obtain ⟨next, hpush, hnext, -⟩ := h.holds.push item
    generalize (session.channel.ring.queue.push item).1 = rejected at hpush
    cases hoffer : offer (item, session.channel.ring) with
    | error fault =>
        rw [push_eq_offer, hoffer] at hpush
        cases hpush
    | ok last =>
        refine ⟨last, _, _, attempts_zero hoffer,
          step_of_rejected hproducing hface hnext.invariant rejected ?_,
          step_of_rejected hproducing hface hnext.invariant rejected ?_⟩
        · simp only [ProducerCall.onBounded, hpush, ok_bind]
        · simp only [ProducerCall.onBounded, pushUntil, hpush, ok_bind]

theorem removeWaits (h : session.channel.ring.Invariant 0) (hconsuming : session.consuming = true)
    (script : List (List (ProducerCall α))) : session.RemoveWaits script where
  backoff_eq := popWithBackoff_eq _
  deadline_eq readings := popUntil_eq readings _
  readable hreadable := by
    obtain ⟨item, next, hpop, hnext, hrequest⟩ := h.request_of_readable hreadable
    have hmade := attempts_of_well hrequest 11
    have hbackoff : session.channel.ring.popWithBackoff = .ok (some item, next) := by
      rw [popWithBackoff_eq, hmade]
      rfl
    refine ⟨item, next, _, hmade, step_of_removed hconsuming hnext (some item) ?_,
      step_of_removed hconsuming hnext (some item) ?_, rfl⟩
    · simp only [ConsumerCall.perform, hpop, ok_bind]
    · simp only [ConsumerCall.perform, hbackoff, ok_bind]
  empty hempty := by
    have hmade := attempts_of_empty hempty 11
    have hbackoff : session.channel.ring.popWithBackoff = .ok (none, session.channel.ring) := by
      rw [popWithBackoff_eq, hmade]
      rfl
    refine ⟨_, hmade, step_of_removed hconsuming h none ?_⟩
    simp only [ConsumerCall.perform, hbackoff, ok_bind]
  late := by
    obtain ⟨next, hpop, hnext, -⟩ := h.holds.pop
    generalize session.channel.ring.queue.pop.1 = removed at hpop
    cases hrequest : request session.channel.ring with
    | error fault =>
        rw [pop_eq_request, hrequest] at hpop
        cases hpop
    | ok last =>
        refine ⟨last, _, _, attempts_zero hrequest,
          step_of_removed hconsuming hnext.invariant removed ?_,
          step_of_removed hconsuming hnext.invariant removed ?_⟩
        · simp only [ConsumerCall.perform, hpop, ok_bind]
        · simp only [ConsumerCall.perform, popUntil, hpop, ok_bind]

/-- In a reachable session of a fixed ring that nobody else acts in, the waiting calls end. An
insert with a backoff is an insert if a slot is free; otherwise it makes twelve attempts, hands the
item back and counts twelve refusals, and that is all. A removal with a backoff is a removal if an
item is readable; otherwise it makes twelve attempts and changes nothing. Behind its deadline a call
makes one attempt, and is the call that does not wait. -/
theorem waiting_transparent {session : Session α} (h : session.Reachable)
    (hface : session.channel.face = .fixed) :
    (session.producing = true → ∀ item script, session.InsertWaits item script) ∧
      (session.consuming = true → ∀ script, session.RemoveWaits script) := by
  constructor
  · intro hproducing item script
    exact insertWaits h.invariant hface hproducing item script
  · intro hconsuming script
    exact removeWaits h.invariant hconsuming script

/-- A ring of one slot. Empty, it lets a removal wait in vain; with an item, an insert of a bomb,
which comes back and leaves twelve refusals behind. -/
theorem waiting_transparent_one :
    let ring : RingBuffer Tracked := ⟨0, 0, 0, .empty 1, .counting, .zero⟩
    let fresh := around .fixed 64 ring
    (∃ status, fresh.step (.consume .removeWithBackoff []) =
      .ok (⟨.called (.removed none) [], status, [], []⟩, fresh)) ∧
    ∃ answers session, fresh.run [.produce (.insertWithBackoff ⟨1, false⟩) []] =
        .ok (answers, session) ∧
      (∃ status last, session.step (.produce (.insertWithBackoff ⟨2, true⟩) []) =
          .ok (⟨.called (.inserted (some ⟨2, true⟩)) [], status, [], []⟩, session.withRing last) ∧
        last.contents = [⟨1, false⟩] ∧ last.counters = ⟨1, 0, 0, 12, 0⟩) ∧
      ∃ item next answer, session.step (.consume .removeWithBackoff []) =
          .ok (answer, session.withRing next) ∧
        session.step (.consume .remove []) = .ok (answer, session.withRing next) ∧
        answer.reply = .called (.removed (some item)) [] := by
  intro ring fresh
  have hring : RingBuffer.create 64 1 .counting 0 = .ok ring := rfl
  have hfresh : fresh.Reachable := .around hring .fixed 64
  have hnone : fresh.channel.ring.live = 0 := (holds_around hring .fixed 64).ring.live_eq
  obtain ⟨unread, -, hempty⟩ := ((waiting_transparent hfresh rfl).2 rfl []).empty hnone
  have hsteps : fresh.AdmitsAll [.produce (.insertWithBackoff ⟨1, false⟩) []] :=
    admitsAll_of_forall (by simp [Admits]) _
  obtain ⟨session, hrun, hsession⟩ := (holds_around hring .fixed 64).run hsteps
  have hcapacity : session.channel.ring.capacity = 1 := hsession.ring.capacity_eq
  have hlive : session.channel.ring.live = 1 := hsession.ring.live_eq
  have hfull : session.channel.ring.room = 0 := by
    rw [RingBuffer.room, hcapacity, hlive]
  have hcontents : session.channel.ring.contents = [⟨1, false⟩] := hsession.ring.contents_eq
  have hmetered : session.channel.ring.config.metered = true := hsession.ring.metered_eq
  have hcounters : session.channel.ring.counters = ⟨1, 0, 0, 0, 0⟩ := hsession.ring.counters_eq
  obtain ⟨hinsert, hremove⟩ :=
    waiting_transparent (hfresh.run hsteps hrun) hsession.face_eq
  obtain ⟨status, -, hrefused⟩ := (hinsert hsession.producing_eq ⟨2, true⟩ []).full hfull
  obtain ⟨item, next, answer, -, hplain, hwaiting, hreply⟩ :=
    (hremove hsession.consuming_eq []).readable (by rw [hlive]; decide)
  refine ⟨⟨unread, hempty⟩, _, session, hrun, ⟨status, _, hrefused, ?_, ?_⟩, item, next, answer,
    hwaiting, hplain, hreply⟩
  · rw [contents_record, hcontents]
  · rw [counters_record, if_pos hmetered, hcounters]
    rfl

end Session

end RingChannel
