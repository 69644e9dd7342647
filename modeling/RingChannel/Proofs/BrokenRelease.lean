import RingChannel.Proofs.Fifo
import RingChannel.Proofs.Resemblance

/-!
# Releases that are broken off

A drain, a discard and a clear work through the front of the window one item at a time, and run
code that may panic for each: the handler, or the destructor of the item. Up to the item whose code
panics first all are gone, that item included, and nothing else has happened: the call is neither
counted nor reported, and the ring goes on as one that never held the items that are gone.
-/

namespace RingChannel

variable {α : Type} [Item α]

namespace ConsumerCall

/-- Of the code that the call runs for the items at the front, one by one, that for item `k` panics
first: the handler of a drain, the destructor of an item in the others. -/
def BreaksAt (items : List α) (k : Nat) : ConsumerCall α → Prop
  | .drain _ panicAt => panicAt = some k
  | .discard _ | .discardExact _ | .clear =>
      (∀ item ∈ items.take k, Item.explodes item = false) ∧
        ∃ bomb, items[k]? = some bomb ∧ Item.explodes bomb = true
  | _ => False

omit [Item α] in
theorem taken_le (call : ConsumerCall α) (items : List α) : call.taken items ≤ items.length := by
  cases call with
  | discardExact | readExact =>
      simp only [taken]
      split <;> omega
  | remove | removeWithBackoff | removeUntil | removeInto | discard | drain | readBatch
  | readChunked => exact Nat.min_le_right _ _
  | clear => exact Nat.le_refl _
  | peek | peekAt | hold | peekBatch | observe => exact Nat.zero_le _

/-- What is answered to a call that was broken off with `gone` items gone. A drain has handed them
over. -/
def broken (gone : List α) : ConsumerCall α → Reply α
  | .drain _ _ => .drained (.panicked .callback) gone
  | .discardExact _ => .discardedExact (.panicked .destructor)
  | _ => .discarded (.panicked .destructor)

def ruined (gone : List α) : ConsumerCall α → List α
  | .drain _ _ => []
  | _ => gone

end ConsumerCall

/-! ## On a queue -/

/-- Destruction gets as far as the first item that panics. -/
theorem demolish_of_bomb {items : List α} {k n : Nat} (hk : k < n)
    (hsafe : ∀ item ∈ items.take k, Item.explodes item = false) {bomb : α}
    (hbomb : items[k]? = some bomb) (hexplodes : Item.explodes bomb = true) :
    demolish (items.take n) = (.panicked .destructor, items.take (k + 1)) := by
  induction items generalizing k n with
  | nil => cases hbomb
  | cons item rest ih =>
      rcases n with _ | n
      · omega
      · rw [List.take_succ_cons, demolish_cons]
        cases k with
        | zero =>
            cases hbomb
            rw [if_pos hexplodes]
            rfl
        | succ k =>
            rw [List.take_succ_cons, List.forall_mem_cons] at hsafe
            have hbomb : rest[k]? = some bomb := hbomb
            rw [hsafe.1, ih (Nat.lt_of_succ_lt_succ hk) hsafe.2 hbomb]
            rfl

namespace Queue

omit [Item α] in
theorem inTurn_quiet (face : Face) (count invocation : Nat) (queue : Queue α) :
    Meanwhile.quiet.inTurn face count invocation queue = ([], queue) := by
  induction count generalizing invocation with
  | zero => rfl
  | succ count ih => simp [Meanwhile.inTurn, Meanwhile.quiet, ih]

theorem discard_of_bomb {queue : Queue α} {count k : Nat} (hk : k < count)
    (hsafe : ∀ item ∈ queue.items.take k, Item.explodes item = false) {bomb : α}
    (hbomb : queue.items[k]? = some bomb) (hexplodes : Item.explodes bomb = true) :
    queue.discard count =
      (.panicked .destructor, queue.items.take (k + 1), queue.behead (k + 1)) := by
  have hin : k < queue.items.length := (List.getElem?_eq_some_iff.1 hbomb).1
  have hlength : (queue.items.take (k + 1)).length = k + 1 := by
    rw [List.length_take]
    omega
  unfold discard
  rw [demolish_of_bomb hk hsafe hbomb hexplodes]
  simp only [hlength]

theorem consume_of_breaksAt {queue : Queue α} {call : ConsumerCall α} {k : Nat}
    (hk : k < call.taken queue.items) (hbreaks : call.BreaksAt queue.items k) (face : Face) :
    queue.consume face .quiet call =
      (⟨call.broken (queue.items.take (k + 1)), call.ruined (queue.items.take (k + 1)), [], []⟩,
        queue.behead (k + 1)) := by
  cases call with
  | drain limit panicAt =>
      cases (show panicAt = some k from hbreaks)
      have hend : drainEnd (some k) (min limit queue.items.length) =
          (.panicked .callback, k + 1) := if_pos hk
      simp only [consume, drain_inTurn, hend, inTurn_quiet, recordDrain,
        Journal.told_after_empty, Journal.nested_after_empty]
      rfl
  | discard count =>
      rcases hbreaks with ⟨hsafe, bomb, hbomb, hexplodes⟩
      have hcount : k < count := Nat.lt_of_lt_of_le hk (Nat.min_le_left _ _)
      simp only [consume, discard_of_bomb hcount hsafe hbomb hexplodes]
      rfl
  | discardExact count =>
      rcases hbreaks with ⟨hsafe, bomb, hbomb, hexplodes⟩
      have hcount : count ≤ queue.items.length ∧ k < count := by
        simp only [ConsumerCall.taken] at hk
        split at hk
        · exact ⟨‹_›, hk⟩
        · omega
      simp only [consume, discardExact, Nat.not_lt.2 hcount.1, if_false,
        discard_of_bomb hcount.2 hsafe hbomb hexplodes]
      rfl
  | clear =>
      rcases hbreaks with ⟨hsafe, bomb, hbomb, hexplodes⟩
      have hcount : k < queue.items.length := hk
      simp only [consume, discard_of_bomb hcount hsafe hbomb hexplodes]
      rfl
  | remove | removeWithBackoff | removeUntil | removeInto | peek | peekAt | hold | readBatch
  | peekBatch | readExact | readChunked | observe => exact hbreaks.elim

end Queue

/-! ## On a ring -/

namespace RingBuffer

/-- `left` is `ring` with its oldest `count` unread items gone. Nothing else has changed. -/
structure Shed (ring : RingBuffer α) (count : Nat) (left : RingBuffer α) : Prop where
  sound : left.Invariant 0
  contents_eq : left.contents = ring.contents.drop count
  head_eq : left.head = ring.head
  tail_eq : left.tail = ring.tail + UInt64.ofNat count
  capacity_eq : left.capacity = ring.capacity
  metered_eq : left.config.metered = ring.config.metered
  counters_eq : left.counters = ring.counters

omit [Item α] in
theorem Holds.shed {ring left : RingBuffer α} {queue : Queue α} (h : ring.Holds 0 queue)
    {count : Nat} (hleft : left.Holds 0 (queue.behead count)) (hhead : left.head = ring.head)
    (hle : count ≤ queue.items.length) : ring.Shed count left := by
  have hcursors : left.tail + UInt64.ofNat (queue.items.length - count) =
      ring.tail + UInt64.ofNat count + UInt64.ofNat (queue.items.length - count) := by
    rw [UInt64.add_assoc, ← UInt64.ofNat_add, Nat.add_sub_cancel' hle, ← h.head_eq, ← hhead,
      hleft.head_eq, Queue.items_behead, List.length_drop]
  refine ⟨hleft.invariant, ?_, hhead, (UInt64.add_left_inj _).1 hcursors, ?_, ?_, ?_⟩
  · rw [hleft.contents_eq, h.contents_eq, Queue.items_behead]
  · rw [hleft.capacity_eq, h.capacity_eq, Queue.capacity_behead]
  · exact hleft.metered_eq.trans h.metered_eq.symm
  · exact hleft.counters_eq.trans h.counters_eq.symm

theorem Invariant.perform_of_breaksAt {ring : RingBuffer α} (h : ring.Invariant 0)
    {call : ConsumerCall α} {k : Nat} (hk : k < call.taken ring.contents)
    (hbreaks : call.BreaksAt ring.contents k) (face : Face) :
    ∃ left, call.perform face .quiet ring =
        .ok (⟨call.broken (ring.contents.take (k + 1)), call.ruined (ring.contents.take (k + 1)),
          [], []⟩, left) ∧
      ring.Shed (k + 1) left := by
  rcases h.holds.consume RingBuffer.head (fun _ _ hsame => hsame) (fun _ => Follows.quiet)
    (fun _ _ queue => List.prefix_refl queue.items) face call with ⟨left, hrun, hleft, hhead⟩
  rw [Queue.consume_of_breaksAt hk hbreaks] at hrun hleft
  have hle : k + 1 ≤ ring.queue.items.length := Nat.lt_of_lt_of_le hk (call.taken_le _)
  exact ⟨left, hrun, h.holds.shed hleft hhead hle⟩

end RingBuffer

namespace Session

theorem step_of_perform {session : Session α} (hconsuming : session.consuming = true)
    {call : ConsumerCall α} {script : List (List (ProducerCall α))} {performed : Performed α}
    {ring : RingBuffer α} (hring : ring.Invariant 0)
    (hperform : call.perform session.channel.face (session.consumerInterlude script)
      session.channel.ring = .ok (performed, ring)) :
    session.step (.consume call script) =
      .ok (⟨.called performed.reply performed.nested, (session.withRing ring).model.status,
        performed.destroyed, performed.events⟩, session.withRing ring) := by
  have hholds : (session.withRing ring).Holds (session.withRing ring).model := holds_model hring
  have hstatus := hholds.status
  unfold withRing at hstatus ⊢
  rw [hconsuming] at hstatus
  unfold Session.step Session.take Session.called Channel.consume
  simp only [hconsuming, if_true, hperform, hstatus, ok_bind]

/-- A drain whose handler leaves the producer alone, or a discard, of which the code for item `k`
panics first: the items up to that one have been handed over or destroyed, in order, and are gone
from the ring, and nothing else has happened. Every later run is answered as on any ring of the
same capacity and counts that holds just the other items. -/
theorem release_broken {session : Session α} (hsound : session.channel.ring.Invariant 0)
    (hconsuming : session.consuming = true) {call : ConsumerCall α} {k : Nat}
    (hk : k < call.taken session.channel.ring.contents)
    (hbreaks : call.BreaksAt session.channel.ring.contents k) :
    ∃ answer left, session.step (.consume call []) = .ok (answer, session.withRing left) ∧
      answer.reply =
        .called (call.broken (session.channel.ring.contents.take (k + 1))) [] ∧
      answer.destroyed = call.ruined (session.channel.ring.contents.take (k + 1)) ∧
      answer.events = [] ∧
      session.channel.ring.Shed (k + 1) left ∧
      ∀ other : RingBuffer α, other.Invariant 0 →
        other.contents = session.channel.ring.contents.drop (k + 1) →
        other.capacity = session.channel.ring.capacity →
        other.config.metered = session.channel.ring.config.metered →
        other.counters = session.channel.ring.counters →
        ∀ steps, (session.withRing left).transcript steps =
          (session.withRing other).transcript steps := by
  rcases hsound.perform_of_breaksAt hk hbreaks session.channel.face with ⟨left, hperform, hshed⟩
  have hquiet : session.consumerInterlude [] = .quiet := rfl
  rw [← hquiet] at hperform
  have hstep := step_of_perform hconsuming hshed.sound hperform
  refine ⟨_, left, hstep, rfl, rfl, rfl, hshed, ?_⟩
  intro other hother hcontents hcapacity hmetered hcounters steps
  apply session.transcript_of_resembles hshed.sound hother
  apply RingBuffer.Resembles.mk
  · rw [hshed.capacity_eq, hcapacity]
  · rw [hshed.contents_eq, hcontents]
  · rw [hshed.metered_eq, hmetered]
  · rw [hshed.counters_eq, hcounters]

/-- Three items, the second of which goes off, in a ring whose cursors start at the last word. A
clear gets as far as the second item; a drain gets as far as its handler. -/
theorem release_broken_bomb :
    let ring : RingBuffer Tracked :=
      ⟨18446744073709551615, 18446744073709551615, 3, .empty 4, .counting, .zero⟩
    let steps : List (Step Tracked) :=
      [.produce (.insert ⟨1, false⟩) [], .produce (.insert ⟨2, true⟩) [],
        .produce (.insert ⟨3, false⟩) []]
    ∃ answers session, (around .fixed 64 ring).run steps = .ok (answers, session) ∧
      session.channel.ring.Invariant 0 ∧ session.consuming = true ∧
      (∃ answer left, session.step (.consume .clear []) = .ok (answer, session.withRing left) ∧
        answer.reply = .called (.discarded (.panicked .destructor)) [] ∧
        answer.destroyed = [⟨1, false⟩, ⟨2, true⟩] ∧ answer.events = [] ∧
        left.contents = [⟨3, false⟩] ∧ left.counters = session.channel.ring.counters) ∧
      ∃ answer left, session.step (.consume (.drain 2 (some 0)) []) =
          .ok (answer, session.withRing left) ∧
        answer.reply = .called (.drained (.panicked .callback) [⟨1, false⟩]) [] ∧
        left.contents = [⟨2, true⟩, ⟨3, false⟩] := by
  intro ring steps
  have hring : RingBuffer.create 64 4 .counting 18446744073709551615 = .ok ring := rfl
  have hsteps : (around .fixed 64 ring).AdmitsAll steps :=
    admitsAll_of_forall (by simp [steps, Admits]) _
  rcases (holds_around hring .fixed 64).run hsteps with ⟨session, hrun, hsession⟩
  have hsound : session.channel.ring.Invariant 0 := hsession.ring.invariant
  have hconsuming : session.consuming = true := hsession.consuming_eq
  have hcontents : session.channel.ring.contents = [⟨1, false⟩, ⟨2, true⟩, ⟨3, false⟩] :=
    hsession.ring.contents_eq
  have hclears : ConsumerCall.clear.BreaksAt session.channel.ring.contents 1 := by
    rw [hcontents]
    exact ⟨by decide, ⟨2, true⟩, rfl, rfl⟩
  have hdrains : (ConsumerCall.drain 2 (some 0)).BreaksAt session.channel.ring.contents 0 := rfl
  have hclear := release_broken hsound hconsuming (by rw [hcontents]; decide) hclears
  have hdrain := release_broken hsound hconsuming (by rw [hcontents]; decide) hdrains
  rw [hcontents] at hclear hdrain
  rcases hclear with ⟨answer, left, hstep, hreply, hdestroyed, hevents, hshed, -⟩
  rcases hdrain with ⟨answer', left', hstep', hreply', -, -, hshed', -⟩
  have hleft := hshed.contents_eq
  have hleft' := hshed'.contents_eq
  rw [hcontents] at hleft hleft'
  exact ⟨_, session, hrun, hsound, hconsuming,
    ⟨answer, left, hstep, hreply, hdestroyed, hevents, hleft, hshed.counters_eq⟩,
    answer', left', hstep', hreply', hleft'⟩

end Session

end RingChannel
