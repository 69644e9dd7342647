import RingChannel.Proofs.BrokenRelease
import RingChannel.Proofs.CapacityStep
import RingChannel.Proofs.Meantime

/-!
# Items that are borrowed

The consumer may borrow unread items and keep them while the producer goes on. A producer call that
does not grow the ring writes into vacant slots and moves the head, and that is all: the store and
the tail stay, and every unread item stays in its slot. That is so up to the last free slot, when
the head has come round to the slot of the oldest item.
-/

namespace RingChannel

variable {α : Type}

namespace RingBuffer

/-- In a full ring the next slot to write is that of the oldest item. -/
theorem Holds.slot_head_of_full {ring : RingBuffer α} {queue : Queue α} (h : ring.Holds 0 queue)
    (hfull : queue.free = 0) : ring.slot ring.head = ring.slot ring.tail := by
  have hmask := h.mask_eq
  have hlength := h.length_le
  have hitems : queue.items.length = ring.mask.toNat + 1 := by
    unfold Queue.free at hfull
    omega
  have hnext := Store.slot_add h.row.valid ring.tail (ring.mask.toNat + 1)
  have holdest := Store.slot_add h.row.valid ring.tail 0
  have hzero : UInt64.ofNat 0 = 0 := rfl
  rw [Nat.add_mod_right] at hnext
  rw [hzero, UInt64.add_zero] at holdest
  rw [slot, slot, h.head_eq, hitems]
  exact hnext.trans holdest.symm

theorem Invariant.exists_unread {ring : RingBuffer α} (h : ring.Invariant 0) {i : Nat}
    (hi : i < ring.length) :
    ∃ unread, ring.store.get? (ring.slot (ring.tail + UInt64.ofNat i)) = some unread ∧
      ring.peekAt i = .ok (some unread) := by
  rw [h.holds.length_eq] at hi
  refine ⟨_, h.holds.get?_unread hi, ?_⟩
  rw [h.holds.peekAt, List.getElem?_eq_getElem hi]

/-- The ring `after` has the store and the tail of `before`, and what was there is still there. -/
structure Sustains (before after : RingBuffer α) : Prop where
  mask_eq : after.mask = before.mask
  size_eq : after.store.size = before.store.size
  growths_eq : after.counters.growths = before.counters.growths
  tail_eq : after.tail = before.tail
  contents_prefix : before.contents <+: after.contents
  keeps : ∀ {index : Nat} {item : α}, before.store.get? index = some item →
    after.store.get? index = some item

namespace Sustains

variable {a b c : RingBuffer α}

theorem refl (ring : RingBuffer α) : ring.Sustains ring :=
  ⟨rfl, rfl, rfl, rfl, List.prefix_refl _, fun hitem => hitem⟩

theorem trans (hab : a.Sustains b) (hbc : b.Sustains c) : a.Sustains c where
  mask_eq := hbc.mask_eq.trans hab.mask_eq
  size_eq := hbc.size_eq.trans hab.size_eq
  growths_eq := hbc.growths_eq.trans hab.growths_eq
  tail_eq := hbc.tail_eq.trans hab.tail_eq
  contents_prefix := hab.contents_prefix.trans hbc.contents_prefix
  keeps := fun hitem => hbc.keeps (hab.keeps hitem)

theorem peekAt (h : a.Sustains b) (ha : a.Invariant 0) (hb : b.Invariant 0) {i : Nat}
    (hi : i < a.length) : b.peekAt i = a.peekAt i := by
  rcases h.contents_prefix with ⟨more, hmore⟩
  have hin : i < a.contents.length := by
    rw [ha.holds.length_eq] at hi
    exact hi
  have hsame : b.contents[i]? = a.contents[i]? := by
    rw [← hmore, List.getElem?_append_left hin]
  exact (hb.holds.peekAt i).trans ((congrArg Except.ok hsame).trans (ha.holds.peekAt i).symm)

theorem slot_head_of_full (h : a.Sustains b) (hb : b.Invariant 0) (hfull : b.free = .ok 0) :
    b.slot b.head = a.slot a.tail := by
  have hfree : b.queue.free = 0 := Except.ok.inj (hb.holds.free_eq.symm.trans hfull)
  rw [hb.holds.slot_head_of_full hfree, slot, h.mask_eq, h.tail_eq, slot]

end Sustains

variable [Item α]

/-! ## Calls of the producer -/

namespace Invariant

variable {ring : RingBuffer α}

theorem produceInside_sustains (h : ring.Invariant 0) (limit : Nat) (face : Face)
    (call : ProducerCall α) :
    ∃ answer next, Channel.produceInside limit face call ring = .ok (answer, next) ∧
      next.Invariant 0 ∧ ring.Sustains next ∧ GrowsNothing answer.events answer.reply := by
  have hring := h.holds
  rcases hring.produceInside limit face call with ⟨next, hrun, hnext, htail⟩
  have hproduced := Queue.produced_produceInside limit face call ring.queue
  have hsteady : ring.queue.Steady (ring.queue.produceInside limit face call).2 :=
    Queue.chains_steady.produceInside Queue.steady_write limit face call ring.queue
  have hmask : next.mask = ring.mask := hring.mask_congr hnext hproduced.capacity_eq
  refine ⟨_, next, hrun, hnext.invariant, ?_, Queue.produceInside_growsNothing limit face call _⟩
  apply Sustains.mk hmask
  · rw [hnext.row.size_eq, hmask, hring.row.size_eq]
  · rw [hnext.counters_eq, hsteady.growths_eq, hring.counters_eq]
  · exact htail
  · rw [hring.contents_eq, hnext.contents_eq]
    exact hproduced.prefix_items
  · intro index item hitem
    exact hring.get?_of_prefix hnext htail hproduced.capacity_eq hproduced.prefix_items hitem

theorem produceCalls_sustain (h : ring.Invariant 0) (limit : Nat) (face : Face)
    (calls : List (ProducerCall α)) :
    ∃ answers last,
      Interlude.performAll (Channel.produceInside limit face) calls ring = .ok (answers, last) ∧
        last.Invariant 0 ∧ ring.Sustains last ∧
        ∀ answer ∈ answers, GrowsNothing answer.events answer.reply := by
  induction calls generalizing ring with
  | nil => exact ⟨[], ring, rfl, h, .refl ring, List.forall_mem_nil _⟩
  | cons call rest ih =>
      rcases h.produceInside_sustains limit face call with
        ⟨answer, next, hcall, hnext, hfirst, hgrows⟩
      rcases ih hnext with ⟨answers, last, hrest, hlast, hlater, hrestGrows⟩
      refine ⟨answer :: answers, last, ?_, hlast, hfirst.trans hlater,
        List.forall_mem_cons.2 ⟨hgrows, hrestGrows⟩⟩
      simp only [Interlude.performAll, hcall, hrest, ok_bind]

end Invariant

end RingBuffer

/-! ## In a session -/

variable [Item α]

namespace Session

theorem step_of_hold {session : Session α} (hconsuming : session.consuming = true) {index : Nat}
    {item : α} (hitem : session.channel.ring.peekAt index = .ok (some item))
    {script : List (List (ProducerCall α))} {journal : Journal α α} {last : RingBuffer α}
    (hlast : last.Invariant 0)
    (hinvoke : (session.consumerInterlude script).invoke session.channel.face item .empty
      session.channel.ring = .ok (journal, last)) :
    session.step (.consume (.hold index) script) =
      .ok (⟨.called (.held (some item)) journal.nested.toList,
        (session.withRing last).model.status, [], []⟩, session.withRing last) := by
  have hperform : (ConsumerCall.hold index).perform session.channel.face
      (session.consumerInterlude script) session.channel.ring =
        .ok (⟨.held (some item), [], [], journal.nested.toList⟩, last) := by
    simp only [ConsumerCall.perform, RingBuffer.hold, hitem, hinvoke, ok_bind]
  exact step_of_perform hconsuming hlast hperform

/-- While an unread item is borrowed, the producer may make any calls. None of them grows the ring:
one that would have to is blocked by the borrow. However far the calls have got, the store and the
tail are those of the time of the borrow, and every item that was unread then is in its slot and is
seen at its place. So it is when the ring has run full, and the next slot to write is that of the
oldest item. -/
theorem hold_stable {session : Session α} (hsound : session.channel.ring.Invariant 0)
    (hconsuming : session.consuming = true) {index : Nat}
    (hindex : index < session.channel.ring.length) (calls : List (ProducerCall α))
    (hproducing : calls ≠ [] → session.producing = true) (later : List (List (ProducerCall α))) :
    let ring := session.channel.ring
    let produce := Interlude.performAll (Channel.produceInside session.limit session.channel.face)
    ∃ item answers final status,
      ring.peekAt index = .ok (some item) ∧ produce calls ring = .ok (answers, final) ∧
      session.step (.consume (.hold index) (calls :: later)) =
        .ok (⟨.called (.held (some item)) (if calls.isEmpty then [] else [(0, answers)]), status,
          [], []⟩, session.withRing final) ∧
      (∀ answer ∈ answers, GrowsNothing answer.events answer.reply) ∧
      ∀ made rest, made ++ rest = calls → ∃ given others mid,
        produce made ring = .ok (given, mid) ∧ produce rest mid = .ok (others, final) ∧
        answers = given ++ others ∧ ring.Sustains mid ∧
        (∀ i < ring.length, ∃ unread,
          ring.store.get? (ring.slot (ring.tail + UInt64.ofNat i)) = some unread ∧
          mid.store.get? (ring.slot (ring.tail + UInt64.ofNat i)) = some unread ∧
          ring.peekAt i = .ok (some unread) ∧ mid.peekAt i = .ok (some unread)) ∧
        (mid.free = .ok 0 → mid.slot mid.head = ring.slot ring.tail) := by
  intro ring produce
  rcases hsound.exists_unread hindex with ⟨item, -, hitem⟩
  rcases hsound.produceCalls_sustain session.limit session.channel.face calls with
    ⟨answers, final, hcalls, hfinal, -, hgrows⟩
  rcases Interlude.invoke_of_performAll hproducing hcalls later item with
    ⟨journal, hinvoke, -, hnested⟩
  have hstep := step_of_hold hconsuming hitem hfinal hinvoke
  rw [hnested] at hstep
  refine ⟨item, answers, final, _, hitem, hcalls, hstep, hgrows, ?_⟩
  rintro made rest rfl
  rcases hsound.produceCalls_sustain session.limit session.channel.face made with
    ⟨given, mid, hmade, hmid, hsustains, -⟩
  rcases hmid.produceCalls_sustain session.limit session.channel.face rest with
    ⟨others, last, hrest, -, -, -⟩
  have hboth := (Interlude.performAll_append hmade hrest).symm.trans hcalls
  cases hboth
  refine ⟨given, others, mid, hmade, hrest, rfl, hsustains, ?_, ?_⟩
  · intro i hi
    rcases hsound.exists_unread hi with ⟨unread, hslot, hseen⟩
    exact ⟨unread, hslot, hsustains.keeps hslot, hseen,
      (hsustains.peekAt hsound hmid hi).trans hseen⟩
  · exact hsustains.slot_head_of_full hmid

/-- Two items in a bare ring whose cursors wrap between them, and the second one is borrowed. A lazy
insert whose factory panics comes to nothing, a chunked write whose callback panics fills the ring,
and an insert is refused. Both items are where they were. -/
theorem hold_stable_wrapping :
    let fresh : RingBuffer UInt64 :=
      ⟨18446744073709551615, 18446744073709551615, 3, .empty 4, .counting, .zero⟩
    let calls : List (ProducerCall UInt64) :=
      [.insertWith 9 (some 0), .writeChunked (.ofArray #[3, 4, 5]) 1 (some 1), .insert 6]
    ∃ before session answers status final,
      (around .bare 64 fresh).run [.produce (.insert 1) [], .produce (.insert 2) []] =
          .ok (before, session) ∧
        session.channel.ring.Invariant 0 ∧ session.channel.ring.length = 2 ∧
        session.step (.consume (.hold 1) [calls]) =
          .ok (⟨.called (.held (some 2)) [(0, answers)], status, [], []⟩,
            session.withRing final) ∧
        session.channel.ring.Sustains final ∧ final.contents = [1, 2, 3, 4] ∧
        final.counters = ⟨4, 0, 0, 1, 0⟩ ∧
        final.peekAt 0 = .ok (some 1) ∧ final.peekAt 1 = .ok (some 2) ∧
        final.slot final.head = session.channel.ring.slot session.channel.ring.tail := by
  intro fresh calls
  let queue : Queue UInt64 := ⟨4, [1, 2], true, ⟨2, 0, 0, 0, 0⟩⟩
  have hfresh : RingBuffer.create 64 4 .counting 18446744073709551615 = .ok fresh := rfl
  have hsteps : (around .bare 64 fresh).AdmitsAll
      [.produce (.insert 1) [], .produce (.insert 2) []] :=
    admitsAll_of_forall (by simp [Admits]) _
  rcases (holds_around hfresh .bare 64).run hsteps with ⟨session, hrun, hsession⟩
  have hsession : session.Holds ⟨.bare, queue, 64, true, true⟩ := hsession
  have hsound : session.channel.ring.Invariant 0 := hsession.ring.invariant
  have hlength : session.channel.ring.length = 2 := hsession.ring.length_eq
  have hindex : 1 < session.channel.ring.length := by
    rw [hlength]
    decide
  rcases hold_stable hsound hsession.consuming_eq hindex calls (fun _ => hsession.producing_eq) []
    with ⟨item, answers, final, status, hitem, hcalls, hstep, -, hmade⟩
  cases hitem.symm.trans (hsession.ring.peekAt 1)
  -- the borrow as a step of the session shows what the calls make of the queue
  have hborrow : session.AdmitsAll [.consume (.hold 1) [calls]] :=
    admitsAll_of_forall (by simp [Admits]) _
  rcases hsession.run hborrow with ⟨left, hleft, hfinal⟩
  simp only [run, hstep, ok_bind, Except.ok.injEq, Prod.mk.injEq] at hleft
  rcases hleft with ⟨-, rfl⟩
  have hcontents : final.contents = [1, 2, 3, 4] :=
    hfinal.ring.contents_eq.trans (by decide +kernel)
  have hcounters : final.counters = ⟨4, 0, 0, 1, 0⟩ :=
    hfinal.ring.counters_eq.trans (by decide +kernel)
  have hfree : final.free = .ok 0 :=
    hfinal.ring.free_eq.trans (congrArg Except.ok (by decide +kernel))
  rcases hmade calls [] (List.append_nil calls) with
    ⟨given, others, mid, -, hrest, -, hsustains, hseen, hfull⟩
  cases hrest
  have hzero : 0 < session.channel.ring.length := Nat.lt_of_succ_lt hindex
  have hfirst := (hsustains.peekAt hsound hfinal.ring.invariant hzero).trans
    (hsession.ring.peekAt 0)
  have hsecond := (hsustains.peekAt hsound hfinal.ring.invariant hindex).trans hitem
  exact ⟨_, session, _, status, final, hrun, hsound, hlength, hstep, hsustains, hcontents,
    hcounters, hfirst, hsecond, hfull hfree⟩

end Session

end RingChannel
