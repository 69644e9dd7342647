import RingChannel.Proofs.Ownership.Flow
import RingChannel.Proofs.Queue.InTurn

/-!
# Answers got inside calls

The answers that a caller gets inside a call are those of its own script, on the queues that the
call leads to. So an invariant of the answers so far and of the queue goes through the whole call:
it holds when the last answer has been got, and what the call does to the queue after that is a
single move.
-/

namespace RingChannel

variable {α β γ : Type}

theorem Journal.nested_note (journal : Journal α β) (argument : β)
    (answers : Option (List (Answer α))) :
    (journal.note argument answers).nested.toList =
      journal.nested.toList ++ answers.toList.map (journal.told.size, ·) := by
  rw [Journal.note_eq_after]
  simp [Journal.after]

/-- The items that a call took out uncounted. A call that is broken off, by code of its caller or by
a destructor, counts nothing of what it has taken. -/
def Reply.lost (destroyed : List α) : Reply α → Nat
  | .drained (.panicked _) items => items.length
  | .discarded (.panicked _) | .discardedExact (.panicked _) => destroyed.length
  | _ => 0

def Face.growing : Face → Bool
  | .growable _ => true
  | .bare | .fixed => false

namespace Queue

variable {K : List (Nat × List (Answer α)) → Queue α → Prop} {meanwhile : Meanwhile α}
  {face : Face}

/-! ## The last move of a call -/

/-- What a call of the producer does in the end: it writes some items that fit and counts some as
refused. -/
inductive Stores (queue : Queue α) : Nat → Queue α → Prop
  | intro (items : List α) (refused : Nat) (hfit : items.length ≤ queue.free) :
      Stores queue refused ((queue.append items).record (.rejected refused))

/-- What a call of the consumer does in the end: it takes out items at the front and counts them,
or it loses them. -/
inductive Releases (queue : Queue α) : Nat → Queue α → Prop
  | removed (count : Nat) (hle : count ≤ queue.items.length) :
      Releases queue 0 ((queue.behead count).record (.removed count))
  | discarded (count : Nat) (hle : count ≤ queue.items.length) :
      Releases queue 0 ((queue.behead count).record (.discarded count))
  | lost (count : Nat) (hle : count ≤ queue.items.length) :
      Releases queue count (queue.behead count)

theorem stores_append {queue : Queue α} {items : List α} (hfit : items.length ≤ queue.free) :
    queue.Stores 0 (queue.append items) := by
  have hstores := Stores.intro items 0 hfit
  rw [record_rejected_zero] at hstores
  exact hstores

theorem stores_rejected (queue : Queue α) (refused : Nat) :
    queue.Stores refused (queue.record (.rejected refused)) := by
  have hstores : queue.Stores refused ((queue.append []).record (.rejected refused)) :=
    .intro [] refused (Nat.zero_le _)
  rw [append_nil] at hstores
  exact hstores

theorem Stores.refl (queue : Queue α) : queue.Stores 0 queue := by
  have hstores := queue.stores_rejected 0
  rw [record_rejected_zero] at hstores
  exact hstores

theorem stores_pushRepeatedly (attempts : Nat) (item : α) (queue : Queue α) :
    ∃ refused, queue.Stores refused (queue.pushRepeatedly attempts item).2 := by
  unfold pushRepeatedly
  split
  · exact ⟨attempts, stores_rejected queue attempts⟩
  · rename_i hfree
    exact ⟨0, stores_append (Nat.pos_iff_ne_zero.2 hfree)⟩

theorem stores_writeBatch (items : Block α) (queue : Queue α) :
    ∃ refused, queue.Stores refused (queue.writeBatch items).2 := by
  have hfit : (items.toList.take (min items.size queue.free)).length ≤ queue.free :=
    Nat.le_trans (List.length_take_le _ _) (Nat.min_le_right _ _)
  have hstores := Stores.intro _ (items.size - min items.size queue.free) hfit
  rw [append_record_rejected] at hstores
  exact ⟨_, hstores⟩

theorem stores_writeAll (items : Block α) (queue : Queue α) :
    queue.Stores 0 (queue.writeAll items).2 := by
  unfold writeAll
  split
  · exact .refl queue
  · rename_i hroom
    exact stores_append (items.length_toList ▸ Nat.not_lt.1 hroom)

theorem Releases.refl (queue : Queue α) : queue.Releases 0 queue :=
  .lost 0 (Nat.zero_le _)

theorem releases_remove (count : Nat) (queue : Queue α) :
    queue.Releases 0 (queue.remove count) := by
  rw [← remove_min, remove, Nat.min_assoc, Nat.min_self]
  exact .removed _ (Nat.min_le_right _ _)

theorem releases_discard [Item α] (count : Nat) (queue : Queue α) :
    queue.Releases ((Reply.discarded (queue.discard count).1).lost (queue.discard count).2.1)
      (queue.discard count).2.2 := by
  have hle := ((prefix_demolish (queue.items.take count)).trans (List.take_prefix _ _)).length_le
  unfold discard
  split
  · rename_i hruins
    rw [hruins] at hle
    exact .discarded _ hle
  · rename_i hruins
    rw [hruins] at hle
    exact .lost _ hle

theorem releases_popInto [Item α] (target : α) (queue : Queue α) :
    queue.Releases 0 (queue.popInto target).2.2.2 := by
  unfold popInto
  split
  · exact .refl queue
  · exact releases_remove 1 queue

theorem releases_discardExact [Item α] (count : Nat) (queue : Queue α) :
    queue.Releases
      ((Reply.discardedExact (queue.discardExact count).1).lost (queue.discardExact count).2.1)
      (queue.discardExact count).2.2 := by
  have hdiscard := releases_discard count queue
  unfold discardExact
  split
  · exact .refl queue
  · generalize queue.discard count = answer at hdiscard ⊢
    rcases answer with ⟨_ | _, destroyed, next⟩
    · exact hdiscard
    · exact hdiscard

/-! ## Invariants of the answers so far -/

/-- What the caller does meanwhile keeps an invariant of the answers that it has got inside the
call, and of the queue. -/
def Meanwhile.Carries (K : List (Nat × List (Answer α)) → Queue α → Prop) (face : Face)
    (meanwhile : Meanwhile α) : Prop :=
  ∀ invocation nested queue, K nested queue →
    K (nested ++ (meanwhile face invocation queue).1.toList.map (invocation, ·))
      (meanwhile face invocation queue).2

namespace Meanwhile.Carries

theorem quiet : (quiet : Meanwhile α).Carries K face := by
  intro invocation nested queue h
  simpa [Meanwhile.quiet] using h

variable (h : meanwhile.Carries K face)

include h

theorem invoke (argument : β) {journal : Journal α β} {queue : Queue α}
    (hqueue : K journal.nested.toList queue) :
    K (meanwhile.invoke face argument journal queue).1.nested.toList
      (meanwhile.invoke face argument journal queue).2 := by
  have hcall := h journal.told.size journal.nested.toList queue hqueue
  rw [← Journal.nested_note journal argument] at hcall
  exact hcall

theorem invoke_empty (argument : β) {queue : Queue α} (hqueue : K [] queue) :
    K (meanwhile.invoke face argument .empty queue).1.nested.toList
      (meanwhile.invoke face argument .empty queue).2 :=
  h.invoke argument hqueue

theorem callback (panicAt : Option Nat) (argument : β) {journal : Journal α β} {queue : Queue α}
    (hqueue : K journal.nested.toList queue) :
    K (meanwhile.callback face panicAt argument journal queue).2.1.nested.toList
      (meanwhile.callback face panicAt argument journal queue).2.2 :=
  h.invoke argument hqueue

theorem inTurn (count invocation : Nat) {nested : List (Nat × List (Answer α))} {queue : Queue α}
    (hqueue : K nested queue) :
    K (nested ++ (meanwhile.inTurn face count invocation queue).1)
      (meanwhile.inTurn face count invocation queue).2 := by
  induction count generalizing invocation nested queue with
  | zero =>
      rw [Meanwhile.inTurn, List.append_nil]
      exact hqueue
  | succ count ih =>
      rw [Meanwhile.inTurn, ← List.append_assoc]
      exact ih (invocation + 1) (h invocation nested queue hqueue)

/-! ## Producer calls -/

section writing

variable (happend : ∀ {items nested queue}, List.length items ≤ queue.free → K nested queue →
  K nested (queue.append items))

include happend

theorem writeRounds (panicAt : Option Nat) (items : Block α) (chunk written : Nat)
    {journal : Journal α Nat} {queue : Queue α} (hqueue : K journal.nested.toList queue) :
    K (queue.writeRounds items chunk (meanwhile.callback face panicAt) written
        journal).2.1.nested.toList
      (queue.writeRounds items chunk (meanwhile.callback face panicAt) written journal).2.2 := by
  fun_induction Queue.writeRounds items chunk (meanwhile.callback face panicAt) written journal
    queue with
  | case1 written journal queue count hcount => exact hqueue
  | case2 written journal queue count hcount journal' queue' hrun ih =>
      have hfit : ((items.toList.drop written).take count).length ≤ queue.free :=
        Nat.le_trans (List.length_take_le _ _) (Nat.min_le_right _ _)
      have hcall := h.callback panicAt count (happend hfit hqueue)
      rw [hrun] at hcall
      exact ih hcall
  | case3 written journal queue count hcount journal' queue' hrun =>
      have hfit : ((items.toList.drop written).take count).length ≤ queue.free :=
        Nat.le_trans (List.length_take_le _ _) (Nat.min_le_right _ _)
      have hcall := h.callback panicAt count (happend hfit hqueue)
      rw [hrun] at hcall
      exact hcall

theorem writeChunked (panicAt : Option Nat) (items : Block α) (chunk : Nat) {queue : Queue α}
    (hqueue : K [] queue) :
    ∃ mid refused, K (queue.writeChunked items chunk (meanwhile.callback face panicAt)
          .empty).2.1.nested.toList mid ∧
      mid.Stores refused
        (queue.writeChunked items chunk (meanwhile.callback face panicAt) .empty).2.2 := by
  have hempty : K (Journal.empty : Journal α Nat).nested.toList queue := hqueue
  have hrounds := h.writeRounds happend panicAt items (RingBuffer.chunkLength chunk items.size) 0
    hempty
  unfold Queue.writeChunked
  split
  · rename_i cause journal next hrun
    rw [hrun] at hrounds
    exact ⟨next, 0, hrounds, .refl next⟩
  · rename_i written journal next hrun
    rw [hrun] at hrounds
    exact ⟨next, _, hrounds, stores_rejected next _⟩

theorem writeChunked_of_room
    (hroom : ∀ face invocation queue, queue.free ≤ (meanwhile face invocation queue).2.free)
    (panicAt : Option Nat) (items : Block α) (chunk : Nat) {queue : Queue α}
    (hfit : items.size ≤ queue.free) (hqueue : K [] queue) :
    K (queue.writeChunked items chunk (meanwhile.callback face panicAt) .empty).2.1.nested.toList
      (queue.writeChunked items chunk (meanwhile.callback face panicAt) .empty).2.2 := by
  have hempty : K (Journal.empty : Journal α Nat).nested.toList queue := hqueue
  have hrounds := h.writeRounds happend panicAt items (RingBuffer.chunkLength chunk items.size) 0
    hempty
  generalize hrun : queue.writeChunked items chunk (meanwhile.callback face panicAt) .empty = answer
  have hall := hrun
  unfold Queue.writeChunked at hrun
  split at hrun
  · rename_i hanswer
    rw [hanswer] at hrounds
    cases hrun
    exact hrounds
  · rename_i hanswer
    rw [hanswer] at hrounds
    cases hrun
    have hwritten := writeChunked_all hfit
      (fun _ journal queue => hroom face journal.told.size queue) hall
    rw [hwritten, Nat.sub_self, record_rejected_zero]
    exact hrounds

omit happend in
theorem pushWith
    (hroom : ∀ face invocation queue, queue.free ≤ (meanwhile face invocation queue).2.free)
    (panicAt : Option Nat) (item : α) {queue : Queue α} (hqueue : K [] queue) :
    ∃ mid refused,
      K (queue.pushWith (meanwhile.factory face panicAt item) .empty).2.1.nested.toList mid ∧
      mid.Stores refused (queue.pushWith (meanwhile.factory face panicAt item) .empty).2.2 := by
  have hmade := h.invoke_empty () hqueue
  have hmadeRoom := hroom face 0 queue
  unfold Queue.pushWith Meanwhile.factory
  by_cases hfree : queue.free = 0
  · simp only [hfree, if_true]
    exact ⟨queue, 1, hqueue, stores_rejected queue 1⟩
  · simp only [hfree, if_false]
    by_cases hpanic : panicAt = some (Journal.empty : Journal α Unit).told.size
    · simp only [hpanic, if_true]
      exact ⟨_, 0, hmade, .refl _⟩
    · simp only [hpanic, if_false]
      exact ⟨_, 0, hmade, stores_append (Nat.le_trans (Nat.pos_iff_ne_zero.2 hfree) hmadeRoom)⟩

/-- All that a producer call does before its last move keeps the invariant. -/
theorem writeBounded
    (hroom : ∀ face invocation queue, queue.free ≤ (meanwhile face invocation queue).2.free)
    (call : ProducerCall α) {queue : Queue α} (hqueue : K [] queue) :
    ∃ mid refused, K (queue.writeBounded face meanwhile call).1.nested mid ∧
      mid.Stores refused (queue.writeBounded face meanwhile call).2 := by
  have halone : ∀ {next : Queue α}, (∃ refused, queue.Stores refused next) →
      ∃ mid refused, K [] mid ∧ mid.Stores refused next := by
    rintro next ⟨refused, hstores⟩
    exact ⟨queue, refused, hqueue, hstores⟩
  cases call with
  | insert item => exact halone (stores_pushRepeatedly 1 item queue)
  | insertWith item panicAt => exact h.pushWith hroom panicAt item hqueue
  | insertWithBackoff item => exact halone (stores_pushRepeatedly 12 item queue)
  | insertUntil item readings => exact halone (stores_pushRepeatedly (readings + 1) item queue)
  | writeBatch items => exact halone (stores_writeBatch items queue)
  | writeChunked items chunk panicAt => exact h.writeChunked happend panicAt items chunk hqueue
  | writeAll items => exact halone ⟨0, stores_writeAll items queue⟩
  | observe => exact halone ⟨0, .refl queue⟩

omit h in
/-- The same on a queue that grows, from the moment when the room is reserved and its capacity is
shown. All of the room is used, so the last move counts no refusals. -/
theorem writeUnbounded [Item α]
    (hroom : ∀ face invocation queue, queue.free ≤ (meanwhile face invocation queue).2.free)
    (limit shown : Nat) (call : ProducerCall α) {queue : Queue α}
    (h : meanwhile.Carries K (.growable (shownAfter shown (queue.grow limit call.needed).1)))
    (hqueue : K [] (queue.reserved limit call)) :
    ∃ mid, K (queue.writeUnbounded limit meanwhile shown call).1.nested mid ∧
      mid.Stores 0 (queue.writeUnbounded limit meanwhile shown call).2.2 := by
  have hgranted : ∀ growth, (queue.grow limit call.needed).1 = .ok growth →
      call.needed ≤ (queue.grow limit call.needed).2.2.free := fun _ => grow_ok
  cases call with
  | insert item =>
      change K [] (queue.grow limit 1).2.2 at hqueue
      simp only [Queue.writeUnbounded, insertGrowing]
      simp only [ProducerCall.needed] at hgranted
      generalize queue.grow limit 1 = answer at hgranted hqueue ⊢
      rcases answer with ⟨error | growth, events, grown⟩
      · exact ⟨grown, hqueue, .refl grown⟩
      · exact ⟨grown, hqueue, stores_append (hgranted growth rfl)⟩
  | writeBatch items =>
      change K [] (queue.grow limit items.size).2.2 at hqueue
      simp only [Queue.writeUnbounded, writeGrowing]
      simp only [ProducerCall.needed] at hgranted
      generalize queue.grow limit items.size = answer at hgranted hqueue ⊢
      rcases answer with ⟨error | growth, events, grown⟩
      · exact ⟨grown, hqueue, .refl grown⟩
      · exact ⟨grown, hqueue, stores_append (items.length_toList ▸ hgranted growth rfl)⟩
  | writeChunked items chunk panicAt =>
      change K [] (queue.grow limit items.size).2.2 at hqueue
      simp only [Queue.writeUnbounded, writeChunkedGrowing]
      simp only [ProducerCall.needed] at h hgranted
      generalize queue.grow limit items.size = answer at h hgranted hqueue ⊢
      rcases answer with ⟨error | growth, events, grown⟩
      · exact ⟨grown, hqueue, .refl grown⟩
      · have hwritten := h.writeChunked_of_room happend hroom panicAt items chunk
          (hgranted growth rfl) hqueue
        simp only
        split
        · rename_i hrun
          rw [hrun] at hwritten
          exact ⟨_, hwritten, .refl _⟩
        · rename_i hrun
          rw [hrun] at hwritten
          exact ⟨_, hwritten, .refl _⟩
  | insertWith | insertWithBackoff | insertUntil | writeAll | observe =>
      exact ⟨queue, hqueue, .refl queue⟩

omit h in
theorem produce [Item α] (h : ∀ face, meanwhile.Carries K face)
    (hroom : ∀ face invocation queue, queue.free ≤ (meanwhile face invocation queue).2.free)
    (limit : Nat) (call : ProducerCall α) (face : Face) {queue : Queue α} (hqueue : K [] queue)
    (hreserved : K [] (queue.reserved limit call)) :
    ∃ mid refused, K (queue.produce limit meanwhile call face).1.nested mid ∧
      mid.Stores refused (queue.produce limit meanwhile call face).2.2 ∧
      (face.growing = true → refused = 0) := by
  have hbounded : ∀ face : Face, ∃ mid refused,
      K (queue.writeBounded face meanwhile call).1.nested mid ∧
      mid.Stores refused (queue.writeBounded face meanwhile call).2 :=
    fun face => (h face).writeBounded happend hroom call hqueue
  cases face with
  | bare =>
      rcases hbounded .bare with ⟨mid, refused, hmid, hstores⟩
      exact ⟨mid, refused, hmid, hstores, nofun⟩
  | fixed =>
      rcases hbounded .fixed with ⟨mid, refused, hmid, hstores⟩
      exact ⟨mid, refused, hmid, hstores, nofun⟩
  | growable shown =>
      rcases writeUnbounded (K := K) happend hroom limit shown call (h _) hreserved with
        ⟨mid, hmid, hstores⟩
      exact ⟨mid, 0, hmid, hstores, fun _ => rfl⟩

end writing

/-! ## Consumer calls -/

section reading

variable (hremove : ∀ count {nested queue}, K nested queue → K nested (queue.remove count))

include hremove

theorem readRounds (panicAt : Option Nat) (chunk total done : Nat) (buffer : Block α)
    {journal : Journal α Nat} {queue : Queue α} (hqueue : K journal.nested.toList queue) :
    K (queue.readRounds chunk (meanwhile.callback face panicAt) total done buffer
        journal).2.2.1.nested.toList
      (queue.readRounds chunk (meanwhile.callback face panicAt) total done buffer
        journal).2.2.2 := by
  fun_induction Queue.readRounds chunk (meanwhile.callback face panicAt) total done buffer journal
    queue with
  | case1 done buffer journal queue count hcount => exact hqueue
  | case2 =>
      rename_i done buffer journal queue count hcount buffer' journal' queue' hrun ih
      have hcall := h.callback panicAt count (hremove count hqueue)
      rw [hrun] at hcall
      exact ih hcall
  | case3 =>
      rename_i done buffer journal queue count hcount buffer' journal' queue' hrun
      have hcall := h.callback panicAt count (hremove count hqueue)
      rw [hrun] at hcall
      exact hcall

omit hremove in
/-- What is done inside a drain leaves its items in front, so these are what it drops in the end. -/
theorem drain
    (hfront : ∀ face invocation queue, queue.items <+: (meanwhile face invocation queue).2.items)
    (limit : Nat) (panicAt : Option Nat) {queue : Queue α} (hqueue : K [] queue) :
    let answer := queue.drain limit (meanwhile.callback face panicAt) .empty
    ∃ mid, K answer.2.1.nested.toList mid ∧
      mid.Releases ((Reply.drained answer.1 answer.2.1.told.toList).lost []) answer.2.2 := by
  have hturn := fun count => h.inTurn count 0 hqueue
  have hkept := fun count => (chains_leading.inTurn hfront face count 0 queue).length_le
  have hle := drainEnd_le panicAt (min limit queue.items.length)
  simp only [drain_inTurn, Journal.nested_after_empty, Journal.told_after_empty]
  rcases drainEnd_cases panicAt (min limit queue.items.length) with hend | ⟨k, -, -, hend⟩
  · rw [hend] at hle ⊢
    refine ⟨_, hturn _, .removed _ (Nat.le_trans ?_ (hkept _))⟩
    omega
  · rw [hend] at hle ⊢
    have hlost : (queue.items.take (k + 1)).length = k + 1 :=
      List.length_take_of_le (by omega)
    have hreleases := Releases.lost (k + 1) (Nat.le_trans (by omega) (hkept (k + 1)))
    refine ⟨_, hturn (k + 1), ?_⟩
    simp only [Reply.lost, hlost]
    exact hreleases

/-- All that a consumer call does before its last move keeps the invariant. -/
theorem consume [Item α]
    (hfront : ∀ face invocation queue, queue.items <+: (meanwhile face invocation queue).2.items)
    (call : ConsumerCall α) {queue : Queue α} (hqueue : K [] queue) :
    ∃ mid, K (queue.consume face meanwhile call).1.nested mid ∧
      mid.Releases ((queue.consume face meanwhile call).1.reply.lost
          (queue.consume face meanwhile call).1.destroyed)
        (queue.consume face meanwhile call).2 := by
  cases call with
  | remove | removeWithBackoff | removeUntil _ => exact ⟨queue, hqueue, releases_remove 1 queue⟩
  | removeInto target => exact ⟨queue, hqueue, releases_popInto target queue⟩
  | hold index =>
      simp only [Queue.consume, Queue.hold]
      split
      · exact ⟨queue, hqueue, .refl queue⟩
      · exact ⟨_, h.invoke_empty _ hqueue, .refl _⟩
  | discard count => exact ⟨queue, hqueue, releases_discard count queue⟩
  | discardExact count => exact ⟨queue, hqueue, releases_discardExact count queue⟩
  | clear => exact ⟨queue, hqueue, releases_discard queue.items.length queue⟩
  | drain limit panicAt => exact h.drain hfront limit panicAt hqueue
  | readBatch buffer => exact ⟨queue, hqueue, releases_remove buffer.size queue⟩
  | readExact buffer =>
      refine ⟨queue, hqueue, ?_⟩
      simp only [Queue.consume, Queue.readExact]
      split
      · exact .refl queue
      · exact releases_remove buffer.size queue
  | readChunked buffer chunk panicAt =>
      have hempty : K (Journal.empty : Journal α Nat).nested.toList queue := hqueue
      exact ⟨_, h.readRounds hremove panicAt _ buffer.size 0 buffer hempty, .refl _⟩
  | peek | peekAt _ | peekBatch _ | observe => exact ⟨queue, hqueue, .refl queue⟩

end reading

end Meanwhile.Carries

/-! ## Scripts -/

section scripts

variable {perform : Face → γ → Queue α → Answer α × Queue α}
  {J : List (γ × Answer α) → Queue α → Prop}

theorem performAll_carries
    (hcall : ∀ call {made queue}, J made queue →
      J (made ++ [(call, (perform face call queue).1)]) (perform face call queue).2)
    (calls : List γ) {made : List (γ × Answer α)} {queue : Queue α} (hqueue : J made queue) :
    J (made ++ calls.zip (Meanwhile.performAll (perform face) calls queue).1)
        (Meanwhile.performAll (perform face) calls queue).2 ∧
      (Meanwhile.performAll (perform face) calls queue).1.length = calls.length := by
  induction calls generalizing made queue with
  | nil => simpa [Meanwhile.performAll] using hqueue
  | cons call rest ih =>
      rcases ih (hcall call hqueue) with ⟨hlast, hlength⟩
      rw [List.append_assoc] at hlast
      exact ⟨hlast, congrArg Nat.succ hlength⟩

theorem ofScript_carries
    (hcall : ∀ call {made queue}, J made queue →
      J (made ++ [(call, (perform face call queue).1)]) (perform face call queue).2)
    (present : Bool) (script : List (List γ)) (invocation : Nat) {made : List (γ × Answer α)}
    {queue : Queue α} (hqueue : J made queue) :
    Meanwhile.ofScript present perform script face invocation queue = (none, queue) ∨
      ∃ answers next,
        Meanwhile.ofScript present perform script face invocation queue = (some answers, next) ∧
        J (made ++ entryCalls script (invocation, answers)) next ∧
        (entryCalls script (invocation, answers)).map Prod.snd = answers := by
  simp only [Meanwhile.ofScript, entryCalls]
  cases script[invocation]? with
  | none => exact .inl rfl
  | some calls =>
      cases calls with
      | nil => exact .inl rfl
      | cons call rest =>
          right
          rw [Option.getD_some]
          cases present with
          | false => exact ⟨[], queue, rfl, (List.append_nil made).symm ▸ hqueue, rfl⟩
          | true =>
              rcases performAll_carries hcall (call :: rest) hqueue with ⟨hlast, hlength⟩
              exact ⟨_, _, rfl, hlast, List.map_snd_zip (Nat.le_of_eq hlength)⟩

/-- An invariant of the calls made so far, with their answers, is one of the answers that a script
gets. Each of these is the answer to one of its calls. -/
theorem carries_ofScript
    (hcall : ∀ call {made queue}, J made queue →
      J (made ++ [(call, (perform face call queue).1)]) (perform face call queue).2)
    (present : Bool) (script : List (List γ)) :
    (Meanwhile.ofScript present perform script).Carries
      (fun nested queue => J (nested.flatMap (entryCalls script)) queue ∧
        ∀ entry ∈ nested, (entryCalls script entry).map Prod.snd = entry.2) face := by
  rintro invocation nested queue ⟨hmade, hanswers⟩
  rcases ofScript_carries hcall present script invocation hmade with
    hrun | ⟨answers, next, hrun, hnext, hall⟩
  · rw [hrun, Option.toList_none, List.map_nil, List.append_nil]
    exact ⟨hmade, hanswers⟩
  · rw [hrun, Option.toList_some, List.map_singleton, List.flatMap_append, List.flatMap_singleton]
    refine ⟨hnext, ?_⟩
    intro entry hin
    rcases List.mem_append.1 hin with hin | hin
    · exact hanswers entry hin
    · cases List.mem_singleton.1 hin
      exact hall

theorem carries_answers {J : List (Answer α) → Queue α → Prop}
    (hcall : ∀ call {answers queue}, J answers queue →
      J (answers ++ [(perform face call queue).1]) (perform face call queue).2)
    (present : Bool) (script : List (List γ)) :
    (Meanwhile.ofScript present perform script).Carries
      (fun nested queue => J (nested.flatMap Prod.snd) queue) face := by
  intro invocation nested queue hqueue
  -- the answers before this invocation stay as they are
  let K : List (γ × Answer α) → Queue α → Prop := fun made queue =>
    J (nested.flatMap Prod.snd ++ made.map Prod.snd) queue
  have hfirst : K [] queue := by
    show J (nested.flatMap Prod.snd ++ []) queue
    rw [List.append_nil]
    exact hqueue
  have hlater : ∀ call {made queue}, K made queue →
      K (made ++ [(call, (perform face call queue).1)]) (perform face call queue).2 := by
    intro call made queue hmade
    show J (nested.flatMap Prod.snd ++ (made ++ _).map Prod.snd) _
    rw [List.map_append, ← List.append_assoc]
    exact hcall call hmade
  rcases ofScript_carries hlater present script invocation hfirst with
    hrun | ⟨answers, next, hrun, hnext, hall⟩
  · rw [hrun, Option.toList_none, List.map_nil, List.append_nil]
    exact hqueue
  · have hnext : J (nested.flatMap Prod.snd ++
        (entryCalls script (invocation, answers)).map Prod.snd) next := hnext
    rw [hall] at hnext
    rw [hrun, Option.toList_some, List.map_singleton, List.flatMap_append, List.flatMap_singleton]
    exact hnext

theorem forall_answers {script : List (List γ)} {nested : List (Nat × List (Answer α))}
    {P : Answer α → Prop}
    (hmade : ∀ made ∈ nested.flatMap (entryCalls script), P made.2)
    (hanswers : ∀ entry ∈ nested, (entryCalls script entry).map Prod.snd = entry.2) :
    ∀ entry ∈ nested, ∀ answer ∈ entry.2, P answer := by
  intro entry hentry answer hanswer
  rw [← hanswers entry hentry] at hanswer
  rcases List.mem_map.1 hanswer with ⟨made, hin, rfl⟩
  exact hmade made (List.mem_flatMap.2 ⟨entry, hentry, hin⟩)

end scripts

/-! ## Calls whose code leaves the other side alone -/

theorem nested_produce_quiet [Item α] (limit : Nat) (call : ProducerCall α) (face : Face)
    (queue : Queue α) : (queue.produce limit .quiet call face).1.nested = [] := by
  have hquiet : ∀ face,
      (Meanwhile.quiet : Meanwhile α).Carries (fun nested _ => nested = []) face := fun _ => .quiet
  rcases Meanwhile.Carries.produce (fun _ h => h) hquiet (fun _ _ queue => Nat.le_refl queue.free)
    limit call face rfl rfl with ⟨_, _, hnested, -⟩
  exact hnested

theorem nested_consume_quiet [Item α] (face : Face) (call : ConsumerCall α) (queue : Queue α) :
    (queue.consume face .quiet call).1.nested = [] := by
  have hquiet : (Meanwhile.quiet : Meanwhile α).Carries (fun nested _ => nested = []) face :=
    .quiet
  have hnone : (fun nested (_ : Queue α) => nested = []) ([] : List (Nat × List (Answer α)))
      queue := rfl
  rcases hquiet.consume (fun _ _ _ h => h) (fun _ _ queue => List.prefix_refl queue.items) call
    hnone with ⟨_, hnested, -⟩
  exact hnested

end Queue

end RingChannel
