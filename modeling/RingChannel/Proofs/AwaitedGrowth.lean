import RingChannel.Proofs.CapacityStep
import RingChannel.Proofs.FailedGrowth
import RingChannel.Proofs.Linearization
import RingChannel.Proofs.Meantime
import RingChannel.Proofs.Resemblance

/-!
# Growth that had to wait

A producer call that finds too little room asks for exclusive access, and until that is granted the
consumer goes on: it ends the drain that it is at, and makes other calls. All that counts then is
the ring as it is when access is granted. Whether the call grows, by how much, and behind which
items it writes is what it would be if the call were made only now.
-/

namespace RingChannel

variable {α κ : Type}

/-! ## Calls that wait -/

section waiting

variable [Item α] {limit : Nat} {asked granted : Growable α}

theorem Growable.reserve_of_short {needed free : Nat} (hfree : asked.ring.free = .ok free)
    (hshort : free < needed) :
    reserve limit needed ⟨asked, granted⟩ = reserve limit needed (.now granted) := by
  have hwaits : ¬ needed ≤ free := Nat.not_le.2 hshort
  unfold reserve Grant.now
  simp only [hfree, ok_bind, hwaits, if_false, grow]
  cases granted.ring.free with
  | error fault => rfl
  | ok free =>
      simp only [ok_bind]
      split <;> rfl

namespace ProducerCall

/-- Perform a call on a growable ring that has to wait for exclusive access if it finds too little
room. -/
def onGrant (limit : Nat) (interlude : Interlude α) (grant : Growable.Grant α) :
    ProducerCall α → Checked (Performed α × Growable α)
  | .insert item => do
      let written ← Growable.insert limit item grant
      .ok (⟨.insertedGrowing written.result, [], written.events, []⟩, written.growable)
  | .writeBatch items => do
      let written ← Growable.writeBatch limit items grant
      .ok (⟨.wroteGrowing written.result, [], written.events, []⟩, written.growable)
  | .writeChunked items chunk panicAt => do
      let (journal, written) ←
        Growable.writeChunked limit items chunk
          (fun shown => interlude.callback (.growable shown) panicAt) .empty grant
      .ok (⟨.wroteChunksGrowing written.result journal.told.toList, [], written.events,
        journal.nested.toList⟩, written.growable)
  | call => call.onGrowable limit interlude grant.asked

theorem onGrant_now (interlude : Interlude α) (call : ProducerCall α) :
    call.onGrant limit interlude (.now granted) = call.onGrowable limit interlude granted := by
  cases call <;> rfl

/-- A call that has to wait is the call as it would be made when access is granted. -/
theorem onGrant_of_short (interlude : Interlude α) {call : ProducerCall α}
    (hcall : call.reserves = true) {free : Nat} (hfree : asked.ring.free = .ok free)
    (hshort : free < call.needed) :
    call.onGrant limit interlude ⟨asked, granted⟩ = call.onGrowable limit interlude granted := by
  have hreserve : Growable.reserve limit call.needed ⟨asked, granted⟩ = _ :=
    Growable.reserve_of_short hfree hshort
  cases call with
  | insert item =>
      simp only [onGrant, onGrowable, Growable.insert, needed] at hreserve ⊢
      rw [hreserve]
  | writeBatch items =>
      simp only [onGrant, onGrowable, Growable.writeBatch, needed] at hreserve ⊢
      rw [hreserve]
  | writeChunked items chunk panicAt =>
      simp only [onGrant, onGrowable, Growable.writeChunked, needed] at hreserve ⊢
      rw [hreserve]
  | insertWith | insertWithBackoff | insertUntil | writeAll | observe => cases hcall

end ProducerCall

end waiting

/-! ## What a call writes that has its room -/

namespace Queue

/-- The list `after` is what is left of `before`. What is gone is gone from the front, and nothing
is if `alone` holds. -/
def Left (alone : Prop) (before after : List α) : Prop :=
  ∃ gone, gone ++ after = before ∧ (alone → gone = [])

namespace Left

variable {alone : Prop} {a b c : List α}

theorem refl (alone : Prop) (a : List α) : Left alone a a :=
  ⟨[], rfl, fun _ => rfl⟩

theorem of_suffix (h : b <:+ a) (halone : ¬ alone) : Left alone a b := by
  rcases h with ⟨gone, hgone⟩
  exact ⟨gone, hgone, fun hall => absurd hall halone⟩

theorem eq (h : Left alone a b) (halone : alone) : b = a := by
  rcases h with ⟨gone, rfl, hnone⟩
  rw [hnone halone]
  rfl

theorem imp {other : Prop} (h : Left alone a b) (hother : other → alone) : Left other a b := by
  rcases h with ⟨gone, hgone, hnone⟩
  exact ⟨gone, hgone, fun hall => hnone (hother hall)⟩

theorem trans (hab : Left alone a b) (hbc : Left alone b c) : Left alone a c := by
  rcases hab with ⟨first, rfl, hfirst⟩
  rcases hbc with ⟨second, rfl, hsecond⟩
  refine ⟨first ++ second, List.append_assoc _ _ _, fun hall => ?_⟩
  rw [hfirst hall, hsecond hall]
  rfl

theorem append (h : Left alone a b) (more : List α) : Left alone (a ++ more) (b ++ more) := by
  rcases h with ⟨gone, rfl, hnone⟩
  exact ⟨gone, (List.append_assoc gone b more).symm, hnone⟩

end Left

section rounds

variable {alone : Prop} {reaction : Reaction α Nat κ}
  (hleft : ∀ count memory queue, Left alone queue.items (reaction count memory queue).2.2.items)

include hleft

/-- Rounds write the items one after another, and the code of the caller takes from the front. -/
theorem left_writeRounds {items : Block α} {chunk written : Nat} {memory : κ} {queue : Queue α}
    {total : Nat} {rest : κ × Queue α}
    (h : queue.writeRounds items chunk reaction written memory = (.returned total, rest))
    (hle : written ≤ items.size) :
    Left alone (queue.items ++ (items.toList.drop written).take (total - written))
      rest.2.items := by
  fun_induction Queue.writeRounds items chunk reaction written memory queue with
  | case1 written memory queue count hcount =>
      cases h
      rw [Nat.sub_self, List.take_zero, List.append_nil]
      exact .refl alone queue.items
  | case2 written memory queue count hcount memory' queue' hrun ih =>
      have hbounds := Queue.writeRounds_le (show written + count ≤ items.size by omega) h
      have hround := hleft count memory (queue.append ((items.toList.drop written).take count))
      rw [hrun, items_append] at hround
      -- this round's items and those of the later rounds together
      have hsplit : total - written = count + (total - (written + count)) := by omega
      rw [hsplit, List.take_add, List.drop_drop, ← List.append_assoc]
      exact (hround.append _).trans (ih h (by omega))
  | case3 => cases h

theorem left_writeChunked {items : Block α} {chunk : Nat} {memory : κ} {queue : Queue α}
    (hroom : items.size ≤ queue.free)
    (hfree : ∀ count memory queue, queue.free ≤ (reaction count memory queue).2.2.free)
    {total : Nat} {rest : κ × Queue α}
    (h : queue.writeChunked items chunk reaction memory = (.returned total, rest)) :
    Left alone (queue.items ++ items.toList) rest.2.items := by
  have hall := writeChunked_all hroom hfree h
  unfold writeChunked at h
  split at h
  · cases h
  · rename_i written memory' queue' hrounds
    cases h
    have hwrote := left_writeRounds hleft hrounds (Nat.zero_le _)
    rw [List.drop_zero, Nat.sub_zero, hall,
      List.take_of_length_le (Nat.le_of_eq items.length_toList)] at hwrote
    rw [items_record]
    exact hwrote

end rounds

end Queue

def ProducerCall.chunked : ProducerCall α → Bool
  | .writeChunked _ _ _ => true
  | _ => false

/-- Only a chunked call looks at what the other side does meanwhile. -/
theorem ProducerCall.onGrowable_of_alone [Item α] (limit : Nat) {interlude : Interlude α}
    {call : ProducerCall α} (hcall : call.reserves = true)
    (halone : call.chunked = true → interlude = .quiet) (growable : Growable α) :
    call.onGrowable limit interlude growable = call.onGrowable limit .quiet growable := by
  cases call with
  | writeChunked items chunk panicAt => rw [halone rfl]
  | insert | writeBatch => rfl
  | insertWith | insertWithBackoff | insertUntil | writeAll | observe => cases hcall

/-- A call that comes back with its room has written its items. What the code of its caller has
taken meanwhile is gone from the front. -/
theorem Queue.left_writeUnbounded [Item α] {queue : Queue α} {meanwhile : Meanwhile α}
    {alone : Prop}
    (hleft : ∀ face invocation queue,
      Left alone queue.items (meanwhile face invocation queue).2.items)
    (hfree : ∀ face invocation queue, queue.free ≤ (meanwhile face invocation queue).2.free)
    (limit shown : Nat) {call : ProducerCall α} {growth : Option Growth}
    (h : (queue.writeUnbounded limit meanwhile shown call).1.reply.growth = some growth) :
    Left (call.chunked = true → alone) (queue.items ++ call.items)
      (queue.writeUnbounded limit meanwhile shown call).2.2.items := by
  cases call with
  | insert item =>
      have hitems := items_grow limit 1 queue
      simp only [writeUnbounded, insertGrowing, ProducerCall.items] at h ⊢
      generalize queue.grow limit 1 = answer at h hitems ⊢
      rcases answer with ⟨result, events, grown⟩
      cases result with
      | error cause => cases h
      | ok growth =>
          simp only [items_append, ← hitems]
          exact .refl _ _
  | writeBatch items =>
      have hitems := items_grow limit items.size queue
      simp only [writeUnbounded, writeGrowing, ProducerCall.items] at h ⊢
      generalize queue.grow limit items.size = answer at h hitems ⊢
      rcases answer with ⟨result, events, grown⟩
      cases result with
      | error cause => cases h
      | ok growth =>
          simp only [items_append, ← hitems]
          exact .refl _ _
  | writeChunked items chunk panicAt =>
      have hitems := items_grow limit items.size queue
      have hroom : ∀ growth, (queue.grow limit items.size).1 = .ok growth →
          items.size ≤ (queue.grow limit items.size).2.2.free := fun _ => grow_ok
      simp only [writeUnbounded, writeChunkedGrowing, ProducerCall.items] at h ⊢
      generalize queue.grow limit items.size = answer at h hitems hroom ⊢
      rcases answer with ⟨result, events, grown⟩
      cases result with
      | error cause => cases h
      | ok growth =>
          simp only at h ⊢
          split at h
          · cases h
          · rename_i hwritten
            rw [← hitems]
            refine (left_writeChunked (fun _ journal queue => ?_) (hroom growth rfl)
              (fun _ journal queue => ?_) hwritten).imp fun halone => halone rfl
            · exact hleft _ journal.told.size queue
            · exact hfree _ journal.told.size queue
  | insertWith | insertWithBackoff | insertUntil | writeAll | observe => cases h

/-! ## Which ring decides -/

section decided

variable [Item α]

/-- The ring `later` alone has decided how the call ends. With room for the call nothing is grown,
nothing is reported, and the items that are unread stay in their slots. Without it the capacity
becomes `target`, the least power of two for what is unread in `later` and what the call needs,
unless that cannot be had. A call that comes back with its room has its items behind those of
`later`. If `alone` holds, the code of the caller has taken none of them meanwhile. -/
structure ProducerCall.DecidedBy (call : ProducerCall α) (limit shown : Nat) (later : RingBuffer α)
    (alone : Prop) (target : Nat) (performed : Performed α) (growable : Growable α) : Prop where
  sound : growable.ring.Invariant 0
  least : Capacity.LeastPower (later.length + call.needed) target
  silent_iff : performed.events = [] ↔ later.length + call.needed ≤ later.capacity
  room : later.length + call.needed ≤ later.capacity →
    performed.reply.reserved = true ∧ (∀ growth ∈ performed.reply.growth, growth = none) ∧
      growable.shown = shown ∧ growable.ring.capacity = later.capacity ∧
      growable.ring.counters.growths = later.counters.growths
  slots : alone → later.length + call.needed ≤ later.capacity →
    ∀ index item, later.store.get? index = some item →
      growable.ring.store.get? index = some item
  grown : later.capacity < later.length + call.needed →
    later.length + call.needed ≤ 1 <<< 63 → target * Item.slotBytes α ≤ limit →
    performed.reply.reserved = true ∧
      (∀ growth ∈ performed.reply.growth, growth = some ⟨later.capacity, target⟩) ∧
      performed.events = [.grew ⟨later.capacity, target⟩] ∧
      growable.shown = target ∧ growable.ring.capacity = target
  failed : later.capacity < later.length + call.needed →
    (1 <<< 63 < later.length + call.needed ∨ limit < target * Item.slotBytes α) →
    ∃ error, performed.reply = call.refusal error ∧
      performed.events = [.growthFailed error call.needed] ∧ growable = ⟨later, shown⟩
  contents : performed.reply.growth.isSome = true →
    Queue.Left alone (later.contents ++ call.items) growable.ring.contents

namespace Queue

variable {queue : Queue α} {meanwhile : Meanwhile α} {call : ProducerCall α} (limit shown : Nat)

theorem writeUnbounded_of_room
    (hsteady : ∀ face invocation queue, Steady queue (meanwhile face invocation queue).2)
    (hcall : call.reserves = true)
    (hroom : queue.items.length + call.needed ≤ queue.capacity) :
    let answer := queue.writeUnbounded limit meanwhile shown call
    answer.1.reply.reserved = true ∧ (∀ growth ∈ answer.1.reply.growth, growth = none) ∧
      answer.1.events = [] ∧ answer.2.1 = shown ∧ queue.Steady answer.2.2 := by
  intro answer
  have hgrow := grow_of_room limit hroom
  have hafter := chains_steady.writeUnbounded hsteady steady_write limit shown queue call
  have hshown := shown_writeUnbounded shown meanwhile limit queue hcall
  rw [reserved_of_room limit (show call.needed ≤ queue.free by unfold free; omega)] at hafter
  rcases writeUnbounded_of_ok shown meanwhile hcall (congrArg Prod.fst hgrow) with
    ⟨hreserved, hgrowth, hevents⟩
  rw [hgrow] at hshown hevents
  exact ⟨hreserved, hgrowth, hevents, hshown, hafter⟩

variable (hvalid : Capacity.isValid queue.capacity = true)
  (hlength : queue.items.length ≤ queue.capacity) {total : Nat}
  (htotal : queue.items.length + call.needed = total) (hshort : queue.capacity < total)

include hvalid hlength htotal hshort

theorem writeUnbounded_of_short
    (hsteady : ∀ face invocation queue, Steady queue (meanwhile face invocation queue).2)
    (hcall : call.reserves = true) (hfree : ¬ Stuck α limit total) :
    let answer := queue.writeUnbounded limit meanwhile shown call
    answer.1.reply.reserved = true ∧
      (∀ growth ∈ answer.1.reply.growth,
        growth = some ⟨queue.capacity, Capacity.roundUp total⟩) ∧
      answer.1.events = [.grew ⟨queue.capacity, Capacity.roundUp total⟩] ∧
      answer.2.1 = Capacity.roundUp total ∧ answer.2.2.capacity = Capacity.roundUp total := by
  intro answer
  have hgrow := grow_of_not_stuck hvalid hlength htotal hshort hfree
  have hafter := chains_steady.writeUnbounded hsteady steady_write limit shown queue call
  have hshown := shown_writeUnbounded shown meanwhile limit queue hcall
  have hreserved : queue.reserved limit call = (queue.grow limit call.needed).2.2 := if_pos hcall
  rw [hreserved, hgrow] at hafter
  rcases writeUnbounded_of_ok shown meanwhile hcall (congrArg Prod.fst hgrow) with
    ⟨hreserved, hgrowth, hevents⟩
  rw [hgrow] at hshown hevents
  exact ⟨hreserved, hgrowth, hevents, hshown, hafter.capacity_eq.trans (capacity_record _ _)⟩

end Queue

namespace RingBuffer.Holds

variable {later : RingBuffer α} {queue : Queue α} (h : later.Holds 0 queue) {limit shown : Nat}
  {call : ProducerCall α} {performed : Performed α} {growable : Growable α}

include h

/-- With room for the call what is unread stays where it is. -/
theorem get?_onGrowable
    (hrun : call.onGrowable limit .quiet ⟨later, shown⟩ = .ok (performed, growable))
    (hroom : call.needed ≤ queue.free) {index : Nat} {item : α}
    (hitem : later.store.get? index = some item) :
    growable.ring.store.get? index = some item := by
  rcases h.writeUnbounded RingBuffer.tail (fun _ _ htail => htail) Follows.quiet
    (fun _ _ queue => Nat.le_refl queue.free) limit shown call (.inl rfl) with
    ⟨next, hwrite, hnext, htail⟩
  rw [hwrite] at hrun
  cases hrun
  have hsteady : (queue.reserved limit call).Steady
      (queue.writeUnbounded limit .quiet shown call).2.2 :=
    Queue.chains_steady.writeUnbounded (fun _ _ => Queue.chains_steady.refl) Queue.steady_write
      limit shown queue call
  have hleads : (queue.reserved limit call).items <+:
      (queue.writeUnbounded limit .quiet shown call).2.2.items :=
    Queue.chains_leading.writeUnbounded (fun _ _ => Queue.chains_leading.refl) Queue.prefix_append
      limit shown queue call
  rw [Queue.reserved_of_room limit hroom] at hsteady hleads
  exact h.get?_of_prefix hnext (htail hroom) hsteady.capacity_eq hleads hitem

end RingBuffer.Holds

theorem RingBuffer.Holds.decided {later : RingBuffer α} {queue : Queue α} (h : later.Holds 0 queue)
    {interlude : Interlude α} {meanwhile : Queue.Meanwhile α}
    (hfollows : Follows (fun ring => (ring.head, ())) 0 interlude meanwhile)
    (hsteady : ∀ face invocation queue, Queue.Steady queue (meanwhile face invocation queue).2)
    (hfree : ∀ face invocation queue, queue.free ≤ (meanwhile face invocation queue).2.free)
    {alone : Prop}
    (hleft : ∀ face invocation queue,
      Queue.Left alone queue.items (meanwhile face invocation queue).2.items)
    (halone : alone → interlude = .quiet) (limit shown : Nat) {call : ProducerCall α}
    (hcall : call.reserves = true) :
    ∃ target performed growable,
      call.onGrowable limit interlude ⟨later, shown⟩ = .ok (performed, growable) ∧
      call.DecidedBy limit shown later (call.chunked = true → alone) target performed growable := by
  rcases h.writeUnbounded (fun _ => ()) (fun _ _ _ => rfl) (hfollows.mono Prod.snd) hfree limit
    shown call (.inl rfl) with ⟨next, hrun, hnext, -⟩
  have hcapacity := h.capacity_eq
  have htotal : queue.items.length + call.needed = later.length + call.needed := by
    rw [h.length_eq]
  have hcontents : (queue.writeUnbounded limit meanwhile shown call).1.reply.growth.isSome = true →
      Queue.Left (call.chunked = true → alone) (later.contents ++ call.items) next.contents := by
    intro hgrowth
    rcases Option.isSome_iff_exists.1 hgrowth with ⟨growth, hgrowth⟩
    rw [hnext.contents_eq, h.contents_eq]
    exact Queue.left_writeUnbounded hleft hfree limit shown hgrowth
  have hleast := Capacity.leastPower_roundUp (later.length + call.needed)
  by_cases hroom : later.length + call.needed ≤ later.capacity
  · have hfits : queue.items.length + call.needed ≤ queue.capacity := by omega
    rcases Queue.writeUnbounded_of_room limit shown hsteady hcall hfits with
      ⟨hreserved, hgrowth, hevents, hshown, hafter⟩
    have hkept : next.capacity = later.capacity := by
      rw [hnext.capacity_eq, hafter.capacity_eq, hcapacity]
    have hgrowths : next.counters.growths = later.counters.growths := by
      rw [hnext.counters_eq, hafter.growths_eq, h.counters_eq]
    refine ⟨_, _, _, hrun, hnext.invariant, hleast, ⟨fun _ => hroom, fun _ => hevents⟩,
      fun _ => ⟨hreserved, hgrowth, hshown, hkept, hgrowths⟩, ?_,
      fun hshort => absurd hroom (Nat.not_le.2 hshort),
      fun hshort => absurd hroom (Nat.not_le.2 hshort), hcontents⟩
    intro hquiet _ index item hitem
    have hsame := ProducerCall.onGrowable_of_alone limit hcall
      (fun hchunked => halone (hquiet hchunked)) ⟨later, shown⟩
    have hslot := h.get?_onGrowable (hsame.symm.trans hrun) (by unfold Queue.free; omega) hitem
    exact hslot
  · have hshort : queue.capacity < later.length + call.needed := by omega
    by_cases hstuck : Queue.Stuck α limit (later.length + call.needed)
    · have hrefused := h.onGrowable_of_stuck shown interlude hcall htotal hshort hstuck
      refine ⟨_, _, _, hrefused, h.invariant, hleast,
        ⟨by rintro ⟨⟩, fun hfits => absurd hfits hroom⟩, fun hfits => absurd hfits hroom,
        fun _ hfits => absurd hfits hroom, ?_, fun _ _ => ⟨_, rfl, rfl, rfl⟩, ?_⟩
      · intro _ hword hmemory
        rcases hstuck with hstuck | hstuck <;> omega
      · intro hgrowth
        rw [Reply.growth_refusal] at hgrowth
        cases hgrowth
    · rcases Queue.writeUnbounded_of_short limit shown h.capacity_valid h.length_le htotal hshort
        hsteady hcall hstuck with ⟨hreserved, hgrowth, hevents, hshown, hafter⟩
      rw [← hcapacity] at hgrowth hevents
      refine ⟨_, _, _, hrun, hnext.invariant, hleast,
        ⟨fun hsilent => ?_, fun hfits => absurd hfits hroom⟩,
        fun hfits => absurd hfits hroom, fun _ hfits => absurd hfits hroom,
        fun _ _ _ => ⟨hreserved, hgrowth, hevents, hshown, hnext.capacity_eq.trans hafter⟩,
        fun _ hfails => absurd hfails hstuck, hcontents⟩
      rw [hevents] at hsilent
      cases hsilent

end decided

/-! ## What the consumer does meanwhile -/

/-- What the consumer is at when a producer call asks for room. A drain has handed over as many items
as its script has lists, and its handler makes the calls of all of them and no more. -/
inductive Pending (α : Type) where
  | idle
  | drain (limit : Nat) (panicAt : Option Nat) (script : List (List (ProducerCall α)))

namespace Session

variable [Item α]

/-- The ring may be `asked` when a producer call asks for room and the consumer is at that. -/
def Asks (session : Session α) (asked : RingBuffer α) : Pending α → Prop
  | .idle => asked = session.channel.ring
  | .drain limit panicAt script =>
      0 < script.length ∧ script.length ≤ min limit session.channel.ring.live ∧
        ∃ window outcome journal, session.channel.ring.consumerWindow = .ok window ∧
          session.channel.ring.drainRun
              ((session.consumerInterlude script).callback session.channel.face panicAt)
              window script.length 0 .empty =
            .ok (outcome, script.length, journal, asked)

def ended (session : Session α) : Pending α → Checked (RingBuffer α)
  | .idle => .ok session.channel.ring
  | .drain limit panicAt script => do
      let (_, ring) ← (ConsumerCall.drain limit panicAt).perform session.channel.face
        (session.consumerInterlude script) session.channel.ring
      .ok ring

def awaited (session : Session α) (pending : Pending α) (calls : List (ConsumerCall α)) :
    Checked (RingBuffer α) := do
  let ring ← session.ended pending
  let (_, ring) ← Interlude.performAll (Channel.consumeInside session.channel.face) calls ring
  .ok ring

end Session

theorem Queue.free_recordDrain (outcome : Outcome Nat) (queue : Queue α) :
    (queue.recordDrain outcome).free = queue.free := by
  cases outcome with
  | returned count => exact Queue.free_record _ queue
  | panicked cause => rfl

variable [Item α]

/-- A drain that has an item to hand over leaves room, whatever its handler does and however it
ends. -/
theorem QueueSession.free_drain (session : QueueSession α) {queue : Queue α}
    (hlength : queue.items.length ≤ queue.capacity) {limit : Nat}
    (hsome : 0 < min limit queue.items.length) (panicAt : Option Nat)
    (script : List (List (ProducerCall α))) :
    0 < (queue.consume session.face (session.consumerMeanwhile script)
      (.drain limit panicAt)).2.free := by
  have hsteady := session.steady_inTurn script session.face
    (drainEnd panicAt (min limit queue.items.length)).2 0 queue
  have hbound := hsteady.length_le hlength
  have hcount : 0 < (drainEnd panicAt (min limit queue.items.length)).2 := by
    rcases drainEnd_cases panicAt (min limit queue.items.length) with hend | ⟨k, -, -, hend⟩
    · rw [hend]
      exact hsome
    · rw [hend]
      exact Nat.succ_pos k
  -- the handler's calls stay within the capacity, and the drain is all that takes items away
  simp only [Queue.consume, Queue.drain_inTurn, Queue.free_recordDrain]
  unfold Queue.free
  rw [Queue.capacity_behead, Queue.items_behead, List.length_drop]
  have hcapacity := hsteady.capacity_eq
  have hle := drainEnd_le panicAt (min limit queue.items.length)
  have hleads := (session.items_prefix_inTurn script session.face
    (drainEnd panicAt (min limit queue.items.length)).2 0 queue).length_le
  omega

namespace Session

/-- Whatever the consumer is at comes to an end. If it is a drain, it leaves room. -/
theorem Holds.ended {session : Session α} {model : QueueSession α} (h : session.Holds model)
    (pending : Pending α) :
    ∃ ring queue, session.ended pending = .ok ring ∧ ring.Holds 0 queue ∧
      ∀ asked, session.Asks asked pending → pending ≠ .idle → 0 < queue.free := by
  cases pending with
  | idle =>
      exact ⟨session.channel.ring, model.queue, rfl, h.ring, fun _ _ hbusy => absurd rfl hbusy⟩
  | drain limit panicAt script =>
      rcases h.ring.consume (fun _ => ()) (fun _ _ _ => rfl) (h.consumerInterlude script)
        (Queue.items_prefix_produceInside model.limit model.producing script)
        session.channel.face (.drain limit panicAt) with ⟨ring, hrun, hring, -⟩
      refine ⟨ring, _, by simp only [Session.ended, hrun, ok_bind], hring, ?_⟩
      rintro asked ⟨hsome, hlist, -⟩ -
      rw [h.ring.live_eq] at hlist
      rw [h.face_eq]
      exact model.free_drain h.ring.length_le (by omega) panicAt script

/-- Inside a drain a call finds the ring as the calls before it have left it, with the items that
have been handed over still in the window. -/
theorem Holds.asks_drain {session : Session α} {model : QueueSession α} (h : session.Holds model)
    {limit : Nat} {panicAt : Option Nat} {script : List (List (ProducerCall α))}
    (hsome : 0 < script.length) (hlist : script.length ≤ min limit model.queue.items.length)
    (hend : (drainEnd panicAt script.length).2 = script.length) :
    ∃ asked, session.Asks asked (.drain limit panicAt script) ∧
      asked.Holds script.length ((model.consumerMeanwhile script).inTurn session.channel.face
        script.length 0 model.queue).2 := by
  have hlive := h.ring.live_eq
  rcases drainRun_tracks (fun gone => (h.consumerInterlude script gone).callback _ panicAt)
    (fun _ journal queue => Queue.items_prefix_produceInside model.limit model.producing script
      session.channel.face journal.told.size queue) (fun _ _ _ => rfl)
    ⟨session.channel.ring.tail, session.channel.ring.live⟩ script.length .empty h.ring rfl
    (by change _ ≤ session.channel.ring.live; omega) (by omega) with
    ⟨asked, done, hrun, hdone, hasked, -, -⟩
  have htake := Queue.drainRun_take (model.consumerMeanwhile script) session.channel.face panicAt
    script.length model.queue
  rw [Nat.min_eq_left (show script.length ≤ model.queue.items.length by omega)] at htake
  simp only [hend] at htake
  rw [List.drop_zero, htake] at hrun hdone hasked
  cases hdone
  rw [← hlive] at hlist
  have hwindow := session.channel.ring.consumerWindow_eq
  exact ⟨asked, ⟨hsome, hlist, _, _, _, hwindow, hrun⟩, hasked⟩

/-- A call that has to wait for exclusive access is decided by the ring as it is when access is
granted, not by the ring that it asked. That ring is what the consumer has made of the other one: it
has ended the drain that it was at, if any, and made other calls. Behind a drain an insert never
grows the ring: its item goes behind those that are left. -/
theorem growth_awaited {session : Session α} (h : session.Reachable) {shown : Nat}
    (hface : session.channel.face = .growable shown) {pending : Pending α} {asked : RingBuffer α}
    (hasked : session.Asks asked pending) {call : ProducerCall α} (hcall : call.reserves = true)
    {free : Nat} (hfree : asked.free = .ok free) (hshort : free < call.needed)
    (calls : List (ConsumerCall α)) (script : List (List (ConsumerCall α))) :
    ∃ later target performed growable,
      session.awaited pending calls = .ok later ∧
      call.onGrant session.limit (session.producerInterlude script)
        ⟨⟨asked, shown⟩, ⟨later, shown⟩⟩ = .ok (performed, growable) ∧
      (session.withRing later).channel.produce session.limit (session.producerInterlude script) call =
        .ok (performed, ⟨.growable growable.shown, growable.ring⟩) ∧
      call.DecidedBy session.limit shown later (call.chunked = true → script = []) target performed
        growable ∧
      ∀ item, call = .insert item → pending ≠ .idle →
        performed.reply = .insertedGrowing (.ok none) ∧ performed.events = [] ∧
          growable.shown = shown ∧ growable.ring.capacity = later.capacity ∧
          growable.ring.contents = later.contents ++ [item] := by
  rcases h.holds with ⟨model, hmodel⟩
  rcases hmodel.ended pending with ⟨ring, queue, hended, hring, hroom⟩
  rcases hring.consumeCalls session.channel.face calls with
    ⟨answers, later, next, hcalls, hlater, -, hconsumed⟩
  have hsteady : ∀ face invocation queue,
      Queue.Steady queue (model.producerMeanwhile script face invocation queue).2 := by
    intro face invocation queue
    exact Queue.chains_steady.ofScript
      (Queue.chains_steady.consumeInside Queue.steady_behead) model.consuming script face invocation
      queue
  have halone : script = [] → session.producerInterlude script = .quiet := by
    rintro rfl
    rfl
  have hleft : ∀ face invocation queue, Queue.Left (script = []) queue.items
      (model.producerMeanwhile script face invocation queue).2.items := by
    intro face invocation queue
    by_cases hscript : script = []
    · cases hscript
      exact .refl _ queue.items
    · have hsuffix := Queue.items_suffix_consumeInside model.consuming script face invocation queue
      exact .of_suffix hsuffix hscript
  rcases hlater.decided (hmodel.producerInterlude script) hsteady
    (Queue.free_consumeInside model.consuming script) hleft halone session.limit shown hcall with
    ⟨target, performed, growable, hrun, hdecided⟩
  -- what has been asked leaves no trace, so only the granted ring is left to look at
  have hwaits : call.onGrant session.limit (session.producerInterlude script)
      ⟨⟨asked, shown⟩, ⟨later, shown⟩⟩ = _ :=
    ProducerCall.onGrant_of_short (session.producerInterlude script) hcall hfree hshort
  refine ⟨later, target, performed, growable, ?_, hwaits.trans hrun, ?_, hdecided, ?_⟩
  · simp only [awaited, hended, hcalls, ok_bind]
  · unfold Channel.produce withRing
    simp only [hface, hrun, ok_bind]
  · rintro item rfl hbusy
    have hfree : next.free ≠ 0 :=
      Nat.pos_iff_ne_zero.1 (Nat.lt_of_lt_of_le (hroom asked hasked hbusy) hconsumed.free_le)
    rcases hlater.insertRoomy session.limit shown item hfree with ⟨last, hinsert, hlast, -⟩
    simp only [ProducerCall.onGrowable, hinsert, ok_bind] at hrun
    cases hrun
    refine ⟨rfl, rfl, rfl, ?_, ?_⟩
    · rw [hlast.capacity_eq, hlater.capacity_eq, Queue.capacity_append]
    · exact (hdecided.contents rfl).eq (by rintro ⟨⟩)

/-- A full ring of four slots. A batch of six asks it for room and waits; by the time that it is
granted access two items are gone, and it grows the ring to eight slots and not to sixteen. An
insert asks it inside a drain of one item, and has no need to grow it afterwards. -/
theorem growth_awaited_full :
    let ring : RingBuffer Tracked :=
      ⟨18446744073709551615, 18446744073709551615, 3, .empty 4, .counting, .zero⟩
    let four : Block Tracked := .ofArray #[⟨1, false⟩, ⟨2, false⟩, ⟨3, false⟩, ⟨4, false⟩]
    let six : Block Tracked := .replicate 6 ⟨5, false⟩
    ∃ answers session asked,
      (around .growable 1024 ring).run [.produce (.writeBatch four) []] = .ok (answers, session) ∧
      session.Reachable ∧ session.channel.face = .growable 4 ∧
      session.channel.ring.free = .ok 0 ∧ asked.free = .ok 0 ∧
      session.Asks session.channel.ring .idle ∧ session.Asks asked (.drain 1 none [[]]) ∧
      (∃ later performed growable, session.awaited .idle [.discard 2] = .ok later ∧
        later.contents = [⟨3, false⟩, ⟨4, false⟩] ∧
        (ProducerCall.writeBatch six).onGrant session.limit (session.producerInterlude [])
          ⟨⟨session.channel.ring, 4⟩, ⟨later, 4⟩⟩ = .ok (performed, growable) ∧
        performed.events = [.grew ⟨4, 8⟩] ∧ growable.ring.capacity = 8) ∧
      ∃ later performed growable, session.awaited (.drain 1 none [[]]) [] = .ok later ∧
        (ProducerCall.insert ⟨6, false⟩).onGrant session.limit (session.producerInterlude [])
          ⟨⟨asked, 4⟩, ⟨later, 4⟩⟩ = .ok (performed, growable) ∧
        performed.reply = .insertedGrowing (.ok none) ∧
        growable.ring.contents = later.contents ++ [⟨6, false⟩] := by
  intro ring four six
  have hring : RingBuffer.create 1024 4 .counting 18446744073709551615 = .ok ring := rfl
  have hsteps : (around .growable 1024 ring).AdmitsAll [.produce (.writeBatch four) []] :=
    admitsAll_of_forall (by simp [Admits]) _
  rcases (holds_around hring .growable 1024).run hsteps with ⟨session, hrun, hsession⟩
  have hreachable : session.Reachable := (Reachable.around hring .growable 1024).run hsteps hrun
  have hface : session.channel.face = .growable 4 := hsession.face_eq
  have hlimit : session.limit = 1024 := hsession.limit_eq
  have hfull : session.channel.ring.free = .ok 0 := hsession.ring.free_eq
  have hcapacity : session.channel.ring.capacity = 4 := hsession.ring.capacity_eq
  have hinside : ∃ asked, session.Asks asked (.drain 1 none [[]]) ∧ asked.Holds 1 _ :=
    hsession.asks_drain (by decide) (by decide) rfl
  rcases hinside with ⟨asked, hasks, hasked⟩
  have hwaits : asked.free = .ok 0 := hasked.free_eq
  rcases hsession.ring.consumeInside session.channel.face (.discard 2) with
    ⟨rest, hdiscard, hrest, -⟩
  have hawaited : session.awaited .idle [.discard 2] = .ok rest := by
    simp only [awaited, ended, Interlude.performAll, hdiscard, ok_bind]
  have hunread : rest.contents = [⟨3, false⟩, ⟨4, false⟩] := hrest.contents_eq
  have hlength : rest.length = 2 := hrest.length_eq
  have hkept : rest.capacity = 4 := hrest.capacity_eq
  rcases growth_awaited hreachable hface (show session.Asks session.channel.ring .idle from rfl)
    (show (ProducerCall.writeBatch six).reserves = true from rfl) hfull (by decide) [.discard 2] []
    with ⟨later, target, performed, growable, hlater, hbatch, -, hdecided, -⟩
  rw [hawaited] at hlater
  cases hlater
  have htarget : target = 8 := by
    have hleast := hdecided.least
    rw [hlength] at hleast
    rw [hleast.eq_roundUp]
    decide
  cases htarget
  have hgrown := hdecided.grown
  rw [hlength, hkept, hlimit] at hgrown
  rcases hgrown (by decide) (by decide) (by decide) with ⟨-, -, hevents, -, hlarger⟩
  rcases growth_awaited hreachable hface hasks
    (show (ProducerCall.insert (⟨6, false⟩ : Tracked)).reserves = true from rfl) hwaits (by decide)
    [] [] with ⟨behind, _, inserted, other, hbehind, hinsert, -, -, hnever⟩
  rcases hnever ⟨6, false⟩ rfl (by rintro ⟨⟩) with ⟨hreply, -, -, -, hcontents⟩
  exact ⟨_, session, asked, hrun, hreachable, hface, hfull, hwaits, rfl, hasks,
    ⟨rest, performed, growable, hawaited, hunread, hbatch, hevents, hlarger⟩,
    behind, inserted, other, hbehind, hinsert, hreply, hcontents⟩

end Session

end RingChannel
