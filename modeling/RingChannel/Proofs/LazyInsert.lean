import RingChannel.Proofs.BrokenRelease
import RingChannel.Proofs.Meantime

/-!
# A lazy insert takes place after the calls made in its factory

A lazy insert samples the free room first and makes its item only if there is some. While the item
is made, the caller may make calls of the consumer. They find the ring as it was, leave the head and
make room, so the slot sampled before them is still the next one to write. The insert is the one
that would be made after them; and if the factory panics, only they have happened.
-/

namespace RingChannel

variable {α κ : Type}

/-! ## On a ring -/

namespace RingBuffer

theorem write_of_push {ring last : RingBuffer α} {item : α}
    (h : ring.push item = .ok (none, last)) :
    ∃ filled, ring.fill ring.head [item] = .ok filled ∧
      filled.publishHead ring.head 1 = .ok last := by
  simp only [push, producerWindow, bind_eq_ok_iff] at h
  rcases h with ⟨_, ⟨room, -, hwindow⟩, h⟩
  cases hwindow
  split at h
  · cases h
  · simp only [bind_eq_ok_iff] at h
    rcases h with ⟨filled, hfill, next, hpublish, hnext⟩
    cases hnext
    exact ⟨filled, hfill, hpublish⟩

/-- Without room nothing is made. -/
theorem pushWith_of_full {ring : RingBuffer α} (hfull : ring.free = .ok 0) (make : Factory α κ)
    (memory : κ) :
    ring.pushWith make memory = .ok (.returned false, memory, ring.record (.rejected 1)) := by
  unfold pushWith producerWindow
  rw [hfull]
  rfl

section room

variable {ring mid last : RingBuffer α} {room : Nat} {make : Factory α κ} {memory left : κ}

/-- An item that is not made is not inserted. -/
theorem pushWith_of_panic (hfree : ring.free = .ok room) (hroom : room ≠ 0)
    (hmake : make memory ring = .ok (none, left, mid)) :
    ring.pushWith make memory = .ok (.panicked .callback, left, mid) := by
  unfold pushWith producerWindow
  simp only [hfree, ok_bind, if_neg hroom, hmake]

/-- As long as the head stays while the item is made, the insert is the one made afterwards. -/
theorem pushWith_of_push (hfree : ring.free = .ok room) (hroom : room ≠ 0) {item : α}
    (hmake : make memory ring = .ok (some item, left, mid)) (hhead : mid.head = ring.head)
    (hpush : mid.push item = .ok (none, last)) :
    ring.pushWith make memory = .ok (.returned true, left, last) := by
  rcases write_of_push hpush with ⟨filled, hfill, hpublish⟩
  rw [hhead] at hfill hpublish
  unfold pushWith producerWindow
  simp only [hfree, ok_bind, if_neg hroom, hmake, hfill, hpublish]

end room

theorem Holds.push_of_room {ring : RingBuffer α} {queue : Queue α} (h : ring.Holds 0 queue)
    (hroom : queue.free ≠ 0) (item : α) :
    ∃ last, ring.push item = .ok (none, last) ∧ last.Holds 0 (queue.append [item]) ∧
      last.head = ring.head + 1 ∧ last.store.get? (ring.slot ring.head) = some item ∧
      last.counters =
        if ring.config.metered then
          { ring.counters with inserted := ring.counters.inserted + 1 }
        else ring.counters := by
  rcases h.push item with ⟨last, hpush, hlast, htail⟩
  rw [Queue.push, if_neg hroom] at hpush hlast
  have hlast : last.Holds 0 (queue.append [item]) := hlast
  have hmask : last.mask = ring.mask := h.mask_congr hlast (queue.capacity_append [item])
  have hin : queue.items.length ≤ ring.mask.toNat := by
    have hring := h.mask_eq
    unfold Queue.free at hroom
    omega
  refine ⟨last, hpush, hlast, ?_, ?_, ?_⟩
  · rw [hlast.head_eq, htail, h.head_eq, Queue.items_append, List.length_append, UInt64.ofNat_add,
      UInt64.add_assoc]
    rfl
  · have hcell := hlast.row.get?_slot queue.items.length (by rw [hmask]; exact hin)
    rw [hmask, htail, if_neg (Nat.not_lt_zero _), Queue.items_append] at hcell
    rw [slot, h.head_eq, hcell]
    simp
  · rw [hlast.counters_eq, Queue.counters_append, h.metered_eq, h.counters_eq]
    rfl

end RingBuffer

/-! ## In a session -/

variable [Item α]

namespace Session

theorem step_of_onBounded {session : Session α} (hproducing : session.producing = true)
    (hface : session.channel.face = .bare ∨ session.channel.face = .fixed)
    {call : ProducerCall α} {script : List (List (ConsumerCall α))} {performed : Performed α}
    {ring : RingBuffer α} (hring : ring.Invariant 0)
    (hperform : call.onBounded session.channel.face (session.producerInterlude script)
      session.channel.ring = .ok (performed, ring)) :
    session.step (.produce call script) =
      .ok (⟨.called performed.reply performed.nested, (session.withRing ring).model.status,
        performed.destroyed, performed.events⟩, session.withRing ring) := by
  have hholds : (session.withRing ring).Holds (session.withRing ring).model := holds_model hring
  have hstatus := hholds.status
  have hproduce : session.channel.produce session.limit (session.producerInterlude script) call =
      .ok (performed, ⟨session.channel.face, ring⟩) := by
    unfold Channel.produce
    rcases hface with hface | hface <;> rw [hface] at hperform ⊢ <;>
      simp only [hperform, ok_bind]
  unfold withRing at hstatus ⊢
  rw [hproducing] at hstatus
  unfold Session.step Session.take Session.called
  simp only [hproducing, if_true, hproduce, hstatus, ok_bind]

theorem step_insert_of_room {session : Session α} (hsound : session.channel.ring.Invariant 0)
    (hproducing : session.producing = true)
    (hface : session.channel.face = .bare ∨ session.channel.face = .fixed)
    (hroom : session.channel.ring.queue.free ≠ 0) (item : α) :
    ∃ last, session.channel.ring.push item = .ok (none, last) ∧ last.Invariant 0 ∧
      session.step (.produce (.insert item) []) =
        .ok (⟨.called (.inserted none) [], (session.withRing last).model.status, [], []⟩,
          session.withRing last) ∧
      last.contents = session.channel.ring.contents ++ [item] ∧
      last.head = session.channel.ring.head + 1 ∧
      last.store.get? (session.channel.ring.slot session.channel.ring.head) = some item ∧
      last.counters =
        if session.channel.ring.config.metered then
          { session.channel.ring.counters with
            inserted := session.channel.ring.counters.inserted + 1 }
        else session.channel.ring.counters := by
  rcases hsound.holds.push_of_room hroom item with
    ⟨last, hpush, hlast, hhead, hslot, hcounters⟩
  have hperform : (ProducerCall.insert item).onBounded session.channel.face
      (session.producerInterlude []) session.channel.ring =
        .ok (.plain (.inserted none), last) := by
    simp only [ProducerCall.onBounded, hpush, ok_bind]
  have hstep := step_of_onBounded hproducing hface hlast.invariant hperform
  refine ⟨last, hpush, hlast.invariant, hstep, ?_, hhead, hslot, hcounters⟩
  rw [hlast.contents_eq, Queue.items_append]
  rfl

theorem step_of_pushWith {session : Session α} (hproducing : session.producing = true)
    (hface : session.channel.face = .bare ∨ session.channel.face = .fixed) {item : α}
    {panicAt : Option Nat} {script : List (List (ConsumerCall α))} {outcome : Outcome Bool}
    {journal : Journal α Unit} {last : RingBuffer α} (hlast : last.Invariant 0)
    (hpush : session.channel.ring.pushWith
      ((session.producerInterlude script).factory session.channel.face panicAt item) .empty =
        .ok (outcome, journal, last)) :
    session.step (.produce (.insertWith item panicAt) script) =
      .ok (⟨.called (.made outcome journal.told.size) journal.nested.toList,
        (session.withRing last).model.status, [], []⟩, session.withRing last) := by
  have hperform : (ProducerCall.insertWith item panicAt).onBounded session.channel.face
      (session.producerInterlude script) session.channel.ring =
        .ok (⟨.made outcome journal.told.size, [], [], journal.nested.toList⟩, last) := by
    simp only [ProducerCall.onBounded, hpush, ok_bind]
  exact step_of_onBounded hproducing hface hlast hperform

/-- A consumer call made inside a call of the producer is answered as it is on its own. -/
theorem step_of_consumeInside {session : Session α} (hsound : session.channel.ring.Invariant 0)
    (hconsuming : session.consuming = true) (call : ConsumerCall α) :
    ∃ answer next,
      Channel.consumeInside session.channel.face call session.channel.ring = .ok (answer, next) ∧
        session.step (.consume call []) = .ok (answer.asStep, session.withRing next) ∧
        next.Invariant 0 := by
  rcases hsound.holds.consume (fun _ => ()) (fun _ _ _ => rfl) (fun _ => Follows.quiet)
    (fun _ _ queue => List.prefix_refl queue.items) session.channel.face call with
    ⟨next, hperform, hnext, -⟩
  have hquiet : session.consumerInterlude [] = .quiet := rfl
  have hstep : session.step (.consume call []) = _ :=
    step_of_perform hconsuming hnext.invariant (hquiet ▸ hperform)
  have hnested := Queue.nested_consume_quiet session.channel.face call session.channel.ring.queue
  have hstatus : (session.withRing next).model.status =
      some (next.queue.observe session.channel.face .consumer).status := by
    have hseen : ((session.withRing next).producing || (session.withRing next).consuming) = true :=
      (congrArg (session.producing || ·) hconsuming).trans (Bool.or_true _)
    exact if_pos hseen
  rw [hnested, hstatus, ← hnext.eq_queue] at hstep
  refine ⟨(session.channel.ring.queue.consumeInside session.channel.face call).1, next, ?_, hstep,
    hnext.invariant⟩
  unfold Channel.consumeInside
  simp only [hperform, hnext.observe, ok_bind]
  rfl

theorem run_of_performAll {session : Session α} (hsound : session.channel.ring.Invariant 0)
    {calls : List (ConsumerCall α)} (hconsuming : calls ≠ [] → session.consuming = true)
    {answers : List (Answer α)} {mid : RingBuffer α}
    (hcalls : Interlude.performAll (Channel.consumeInside session.channel.face) calls
      session.channel.ring = .ok (answers, mid)) :
    session.run (calls.map (.consume · [])) =
      .ok (answers.map Answer.asStep, session.withRing mid) := by
  induction calls generalizing session answers with
  | nil =>
      cases hcalls
      rfl
  | cons call rest ih =>
      have hthere : session.consuming = true := hconsuming (List.cons_ne_nil call rest)
      rcases step_of_consumeInside hsound hthere call with ⟨answer, next, hinside, hstep, hnext⟩
      simp only [Interlude.performAll, hinside, ok_bind, bind_eq_ok_iff] at hcalls
      rcases hcalls with ⟨⟨others, last⟩, hrest, hpair⟩
      cases hpair
      have hnext : (session.withRing next).channel.ring.Invariant 0 := hnext
      have hrun := ih hnext (fun _ => hthere) hrest
      simp only [List.map_cons, run, hstep, hrun, ok_bind]
      rfl

/-- The factory of a lazy insert makes the calls of the first list, and then its item. -/
theorem factory_of_performAll {session : Session α} {calls : List (ConsumerCall α)}
    (hconsuming : calls ≠ [] → session.consuming = true) {answers : List (Answer α)}
    {mid : RingBuffer α}
    (hcalls : Interlude.performAll (Channel.consumeInside session.channel.face) calls
      session.channel.ring = .ok (answers, mid))
    (item : α) (panicAt : Option Nat) (later : List (List (ConsumerCall α))) :
    ∃ journal,
      (session.producerInterlude (calls :: later)).factory session.channel.face panicAt item .empty
          session.channel.ring = .ok (if panicAt = some 0 then none else some item, journal, mid) ∧
        journal.told.size = 1 ∧
        journal.nested.toList = if calls.isEmpty then [] else [(0, answers)] := by
  have hsize : (Journal.empty : Journal α Unit).told.size = 0 := rfl
  rcases Interlude.invoke_of_performAll hconsuming hcalls later () with
    ⟨journal, hinvoke, htold, hnested⟩
  refine ⟨journal, ?_, htold, hnested⟩
  unfold Interlude.factory Interlude.callback producerInterlude
  simp only [hinvoke, hsize, ok_bind]
  by_cases hpanic : panicAt = some 0
  · simp only [hpanic, if_true]
  · simp only [hpanic, if_false]

section made

variable {session : Session α} (hproducing : session.producing = true)
  (hface : session.channel.face = .bare ∨ session.channel.face = .fixed)
  {calls : List (ConsumerCall α)} (hconsuming : calls ≠ [] → session.consuming = true)
  {answers : List (Answer α)} {mid : RingBuffer α}
  (hcalls : Interlude.performAll (Channel.consumeInside session.channel.face) calls
    session.channel.ring = .ok (answers, mid))
  {room : Nat} (hfree : session.channel.ring.free = .ok room) (hroom : room ≠ 0)
  (later : List (List (ConsumerCall α)))

include hproducing hface hconsuming hcalls hfree hroom

theorem step_insertWith_of_panic (hmid : mid.Invariant 0) (item : α) :
    session.step (.produce (.insertWith item (some 0)) (calls :: later)) =
      .ok (⟨.called (.made (.panicked .callback) 1) (if calls.isEmpty then [] else [(0, answers)]),
        (session.withRing mid).model.status, [], []⟩, session.withRing mid) := by
  rcases factory_of_performAll hconsuming hcalls item (some 0) later with
    ⟨journal, hmake, htold, hnested⟩
  rw [if_pos rfl] at hmake
  have hstep := step_of_pushWith hproducing hface hmid
    (RingBuffer.pushWith_of_panic hfree hroom hmake)
  rw [htold, hnested] at hstep
  exact hstep

theorem step_insertWith_of_push (hhead : mid.head = session.channel.ring.head) {item : α}
    {last : RingBuffer α} (hpush : mid.push item = .ok (none, last)) (hlast : last.Invariant 0)
    {panicAt : Option Nat} (hcalm : panicAt ≠ some 0) :
    session.step (.produce (.insertWith item panicAt) (calls :: later)) =
      .ok (⟨.called (.made (.returned true) 1) (if calls.isEmpty then [] else [(0, answers)]),
        (session.withRing last).model.status, [], []⟩, session.withRing last) := by
  rcases factory_of_performAll hconsuming hcalls item panicAt later with
    ⟨journal, hmake, htold, hnested⟩
  rw [if_neg hcalm] at hmake
  have hstep := step_of_pushWith hproducing hface hlast
    (RingBuffer.pushWith_of_push hfree hroom hmake hhead hpush)
  rw [htold, hnested] at hstep
  exact hstep

end made

/-- A lazy insert with consumer calls made in its factory. Without a free slot neither the item nor
the calls are made, and only the one refusal is counted. Otherwise the item is made once, and the
insert is these calls, as steps of their own one after another, and then an insert of the item,
which finds room and is counted once. If the factory panics after the calls, they are all that has
happened, and the next insert goes into the slot that was meant for the item. -/
theorem insertWith_linearizes {session : Session α} (hsound : session.channel.ring.Invariant 0)
    (hface : session.channel.face = .bare ∨ session.channel.face = .fixed)
    (hproducing : session.producing = true) (item : α) (panicAt : Option Nat)
    (calls : List (ConsumerCall α)) (hconsuming : calls ≠ [] → session.consuming = true)
    (later : List (List (ConsumerCall α))) :
    let ring := session.channel.ring
    let lazy := session.step (.produce (.insertWith item panicAt) (calls :: later))
    (ring.free = .ok 0 →
      ∃ status, lazy =
        .ok (⟨.called (.made (.returned false) 0) [], status, [], []⟩,
          session.withRing { ring with counters :=
            if ring.config.metered then
              { ring.counters with rejected := ring.counters.rejected + 1 }
            else ring.counters })) ∧
    (ring.free ≠ .ok 0 →
      ∃ answers mid status,
        session.run (calls.map (.consume · [])) =
            .ok (answers.map Answer.asStep, session.withRing mid) ∧
          (session.withRing mid).status = .ok status ∧
          let nested := if calls.isEmpty then [] else [(0, answers)]
          (panicAt = some 0 →
            lazy = .ok (⟨.called (.made (.panicked .callback) 1) nested, status, [], []⟩,
              session.withRing mid)) ∧
          (panicAt ≠ some 0 → ∃ status last,
            (session.withRing mid).step (.produce (.insert item) []) =
                .ok (⟨.called (.inserted none) [], status, [], []⟩, session.withRing last) ∧
              lazy = .ok (⟨.called (.made (.returned true) 1) nested, status, [], []⟩,
                session.withRing last)) ∧
          mid.head = ring.head ∧
          ∀ other, ∃ answer last,
            (session.withRing mid).step (.produce (.insert other) []) =
                .ok (answer, session.withRing last) ∧
              answer.reply = .called (.inserted none) [] ∧
              last.contents = mid.contents ++ [other] ∧ last.head = ring.head + 1 ∧
              last.store.get? (ring.slot ring.head) = some other ∧
              last.counters =
                if ring.config.metered then
                  { mid.counters with inserted := mid.counters.inserted + 1 }
                else mid.counters) := by
  intro ring lazy
  have hring : ring.Holds 0 ring.queue := hsound.holds
  have hfree : ring.free = .ok ring.queue.free := hring.free_eq
  constructor
  · intro hfull
    have hrefused := RingBuffer.pushWith_of_full hfull ((session.producerInterlude
      (calls :: later)).factory session.channel.face panicAt item) .empty
    have hstep := step_of_pushWith hproducing hface (hring.record _).invariant hrefused
    rw [RingBuffer.record_eq] at hstep
    exact ⟨_, hstep⟩
  · intro hopen
    have hroom : ring.queue.free ≠ 0 := by
      intro hzero
      rw [hfree, hzero] at hopen
      exact hopen rfl
    rcases hring.consumeCalls session.channel.face calls with
      ⟨answers, mid, next, hcalls, hmid, hhead, hconsumed⟩
    have hafter : (session.withRing mid).channel.ring.Invariant 0 := hmid.invariant
    have hmidRoom : mid.queue.free ≠ 0 := by
      have hle := hconsumed.free_le
      rw [hmid.eq_queue] at hle
      omega
    refine ⟨answers, mid, (session.withRing mid).model.status,
      run_of_performAll hsound hconsuming hcalls, (holds_model hafter).status, ?_, ?_, hhead, ?_⟩
    · rintro rfl
      exact step_insertWith_of_panic hproducing hface hconsuming hcalls hfree hroom later hafter
        item
    · intro hcalm
      rcases step_insert_of_room hafter hproducing hface hmidRoom item with
        ⟨last, hpush, hlast, hinsert, -⟩
      have hlazy := step_insertWith_of_push hproducing hface hconsuming hcalls hfree hroom later
        hhead hpush hlast hcalm
      exact ⟨_, last, hinsert, hlazy⟩
    · intro other
      rcases step_insert_of_room hafter hproducing hface hmidRoom other with
        ⟨last, -, -, hinsert, hcontents, hlastHead, hslot, hcounters⟩
      have hmetered : mid.config.metered = ring.config.metered :=
        hmid.metered_eq.trans hconsumed.metered_eq
      have hmask : mid.mask = ring.mask := hring.mask_congr hmid hconsumed.capacity_eq
      have hreused : (session.withRing mid).channel.ring.slot
          (session.withRing mid).channel.ring.head = ring.slot ring.head := by
        change mid.slot mid.head = ring.slot ring.head
        rw [RingBuffer.slot, hmask, hhead, RingBuffer.slot]
      rw [hreused] at hslot
      rw [← hmetered]
      exact ⟨_, last, hinsert, rfl, hcontents, hlastHead.trans (congrArg (· + 1) hhead), hslot,
        hcounters⟩

/-- A bare ring whose cursors wrap in its first batch, with a bomb among the items and one free
slot. In the factory the first item is removed, and the discard of the bomb panics. The insert goes
through, or the factory panics as well; in a full ring it is not even asked. -/
theorem insertWith_linearizes_bomb :
    let ring : RingBuffer Tracked :=
      ⟨18446744073709551615, 18446744073709551615, 3, .empty 4, .counting, .zero⟩
    let batch : Step Tracked :=
      .produce (.writeBatch (.ofArray #[⟨1, false⟩, ⟨2, true⟩, ⟨3, false⟩])) []
    let calls : List (ConsumerCall Tracked) := [.remove, .discard 1]
    let lazy : Option Nat → Step Tracked := fun panicAt =>
      .produce (.insertWith ⟨4, false⟩ panicAt) [calls, [.remove]]
    ∃ before session, (around .bare 64 ring).run [batch] = .ok (before, session) ∧
      session.channel.ring.Invariant 0 ∧ session.channel.ring.free = .ok 1 ∧
      (∃ answers mid status,
        session.run (calls.map (.consume · [])) =
            .ok (answers.map Answer.asStep, session.withRing mid) ∧
          mid.contents = [⟨3, false⟩] ∧ mid.counters = ⟨3, 1, 0, 0, 0⟩ ∧
          session.step (lazy (some 0)) =
            .ok (⟨.called (.made (.panicked .callback) 1) [(0, answers)], status, [], []⟩,
              session.withRing mid)) ∧
      (∃ answers status last,
        session.step (lazy none) =
            .ok (⟨.called (.made (.returned true) 1) [(0, answers)], status, [], []⟩,
              session.withRing last) ∧
          last.contents = [⟨3, false⟩, ⟨4, false⟩] ∧ last.counters = ⟨4, 1, 0, 0, 0⟩) ∧
      ∃ answers full status, session.run [.produce (.insert ⟨5, false⟩) []] = .ok (answers, full) ∧
        full.channel.ring.counters = ⟨4, 0, 0, 0, 0⟩ ∧
        full.step (lazy none) =
          .ok (⟨.called (.made (.returned false) 0) [], status, [], []⟩,
            full.withRing { full.channel.ring with counters := ⟨4, 0, 0, 1, 0⟩ }) := by
  intro ring batch calls lazy
  have hring : RingBuffer.create 64 4 .counting 18446744073709551615 = .ok ring := rfl
  have hsteps : (around .bare 64 ring).AdmitsAll [batch] :=
    admitsAll_of_forall (by simp [batch, Admits]) _
  rcases (holds_around hring .bare 64).run hsteps with ⟨session, hrun, hsession⟩
  have hsound : session.channel.ring.Invariant 0 := hsession.ring.invariant
  have hface : session.channel.face = .bare := hsession.face_eq
  have hproducing : session.producing = true := hsession.producing_eq
  have hconsuming : session.consuming = true := hsession.consuming_eq
  have hfree : session.channel.ring.free = .ok 1 := hsession.ring.free_eq
  have hopen : session.channel.ring.free ≠ .ok 0 := by
    rw [hfree]
    exact fun h => absurd (Except.ok.inj h) (by decide)
  -- the calls on their own leave the last item
  have hcalls : session.AdmitsAll (calls.map (.consume · [])) :=
    admitsAll_of_forall (by simp [calls, Admits]) _
  rcases hsession.run hcalls with ⟨left, hleft, hleftHolds⟩
  have hcontents : left.channel.ring.contents = [⟨3, false⟩] := hleftHolds.ring.contents_eq
  have hcounters : left.channel.ring.counters = ⟨3, 1, 0, 0, 0⟩ := hleftHolds.ring.counters_eq
  have hmidLeft : ∀ {answers mid}, session.run (calls.map (.consume · [])) =
      .ok (answers, session.withRing mid) →
        mid.contents = [⟨3, false⟩] ∧ mid.counters = ⟨3, 1, 0, 0, 0⟩ := by
    intro answers mid hmid
    rw [hleft] at hmid
    cases hmid
    exact ⟨hcontents, hcounters⟩
  have hpanics := insertWith_linearizes hsound (.inl hface) hproducing ⟨4, false⟩ (some 0) calls
    (fun _ => hconsuming) [[.remove]]
  have hcalm := insertWith_linearizes hsound (.inl hface) hproducing ⟨4, false⟩ none calls
    (fun _ => hconsuming) [[.remove]]
  rcases hpanics.2 hopen with ⟨answers, mid, status, hmid, -, hpanics, -⟩
  rcases hcalm.2 hopen with ⟨others, other, _, hother, -, -, hcalm, -, hinsert⟩
  rcases hcalm (by rintro ⟨⟩) with ⟨grown, last, hstep, hcalm⟩
  rcases hinsert ⟨4, false⟩ with ⟨answer, same, hsame, -, hsameContents, -, -, hsameCounters⟩
  have hlast : last = same := by
    have hring := congrArg Prod.snd (Except.ok.inj (hstep.symm.trans hsame))
    exact congrArg (fun session => session.channel.ring) hring
  subst hlast
  have hmetered : session.channel.ring.config.metered = true := hsession.ring.metered_eq
  rw [(hmidLeft hother).1] at hsameContents
  rw [(hmidLeft hother).2, hmetered] at hsameCounters
  have hfill : session.AdmitsAll [.produce (.insert ⟨5, false⟩) []] :=
    admitsAll_of_forall (by simp [Admits]) _
  rcases hsession.run hfill with ⟨full, hfilled, hfull⟩
  have hrefused := insertWith_linearizes hfull.ring.invariant (.inl hfull.face_eq)
    hfull.producing_eq ⟨4, false⟩ none calls (fun _ => hfull.consuming_eq) [[.remove]]
  rcases hrefused.1 hfull.ring.free_eq with ⟨refused, hrefused⟩
  have hfullMetered : full.channel.ring.config.metered = true := hfull.ring.metered_eq
  have hfullCounters : full.channel.ring.counters = ⟨4, 0, 0, 0, 0⟩ := hfull.ring.counters_eq
  rw [hfullMetered, hfullCounters] at hrefused
  exact ⟨_, session, hrun, hsound, hfree,
    ⟨answers, mid, status, hmid, (hmidLeft hmid).1, (hmidLeft hmid).2, hpanics rfl⟩,
    ⟨others, grown, last, hcalm, hsameContents, hsameCounters⟩, _, full, refused, hfilled,
    hfullCounters, hrefused⟩

end Session

end RingChannel
