import Mathlib.Order.Defs.LinearOrder
import RingChannel.Proofs.Queue.Reserve
import RingChannel.Proofs.Refinement.Listening
import RingChannel.Proofs.Resemblance

/-!
# The ways to write agree

Items can be inserted one by one, written as a batch, or written in chunks. With nobody in between
it comes to the same: as many as fit are accepted, in order, and the others are counted as refused.
A growable ring that takes them all has grown to the least capacity that is enough, be it at once
or step by step.
-/

namespace RingChannel

variable {α κ : Type}

/-! ## What fits -/

namespace Queue

/-- As many of the items as fit are in the queue, and the others are counted as refused. -/
def offered (items : List α) (queue : Queue α) : Queue α :=
  (queue.append (items.take queue.free)).record
    (.rejected (items.length - min items.length queue.free))

theorem offered_nil (queue : Queue α) : queue.offered [] = queue := by
  simp [offered]

theorem offered_cons_of_full {queue : Queue α} (hfull : queue.free = 0) (item : α)
    (rest : List α) :
    queue.offered (item :: rest) = (queue.record (.rejected 1)).offered rest := by
  unfold offered
  rw [free_record, hfull, List.take_zero, List.take_zero, append_nil, append_nil,
    record_rejected_add, List.length_cons]
  congr 2
  omega

theorem offered_cons_of_room {queue : Queue α} (hroom : queue.free ≠ 0) (item : α)
    (rest : List α) : queue.offered (item :: rest) = (queue.append [item]).offered rest := by
  rcases Nat.exists_eq_succ_of_ne_zero hroom with ⟨room, hfree⟩
  unfold offered
  rw [free_append, append_append, hfree, List.take_succ_cons, List.length_cons,
    List.length_singleton, List.singleton_append, Nat.succ_sub_one]
  congr 2
  omega

theorem offered_block (items : Block α) (queue : Queue α) :
    queue.offered items.toList = (queue.append (items.toList.take queue.free)).record
      (.rejected (items.size - min items.size queue.free)) := by
  rw [offered, items.length_toList]

theorem writeBatch_eq_offered (items : Block α) (queue : Queue α) :
    queue.writeBatch items = (min items.size queue.free, queue.offered items.toList) := by
  have htake : items.toList.take (min items.size queue.free) = items.toList.take queue.free := by
    rw [Nat.min_comm, ← items.length_toList, ← List.take_eq_take_min]
  rw [offered_block, append_record_rejected, ← htake]
  rfl

end Queue

namespace RingBuffer

/-- Insert the items one by one, also after refusals, and tell how many were accepted. -/
def pushAll : List α → RingBuffer α → Checked (Nat × RingBuffer α)
  | [], ring => .ok (0, ring)
  | item :: rest, ring => do
      let (rejected, ring) ← ring.push item
      let (count, ring) ← pushAll rest ring
      .ok (if rejected.isNone then count + 1 else count, ring)

theorem Holds.pushAll {ring : RingBuffer α} {gone : Nat} {queue : Queue α}
    (h : ring.Holds gone queue) (items : List α) :
    ∃ next, ring.pushAll items = .ok (min items.length queue.free, next) ∧
      next.Holds gone (queue.offered items) ∧ next.tail = ring.tail := by
  induction items generalizing ring queue with
  | nil =>
      refine ⟨ring, ?_, ?_, rfl⟩
      · rw [List.length_nil, Nat.zero_min]
        rfl
      · rw [Queue.offered_nil]
        exact h
  | cons item rest ih =>
      rcases h.push item with ⟨mid, hpush, hmid, hmidTail⟩
      by_cases hfull : queue.free = 0
      · rw [Queue.push, if_pos hfull] at hpush hmid
        rcases ih hmid with ⟨next, hrest, hnext, htail⟩
        rw [Queue.offered_cons_of_full hfull]
        refine ⟨next, ?_, hnext, htail.trans hmidTail⟩
        simp only [RingBuffer.pushAll, hpush, hrest, ok_bind, Queue.free_record, hfull,
          Nat.min_zero, Option.isNone_some, Bool.false_eq_true, if_false]
      · rw [Queue.push, if_neg hfull] at hpush hmid
        rcases ih hmid with ⟨next, hrest, hnext, htail⟩
        rw [Queue.offered_cons_of_room hfull]
        refine ⟨next, ?_, hnext, htail.trans hmidTail⟩
        have hcount : min rest.length (queue.append [item]).free + 1 =
            min (item :: rest).length queue.free := by
          rw [Queue.free_append, List.length_singleton, List.length_cons]
          omega
        simp only [RingBuffer.pushAll, hpush, hrest, ok_bind, Option.isNone_none, if_true, hcount]

/-- On a ring that refuses, items come to the same however they are written. -/
theorem Holds.offers_agree {ring : RingBuffer α} {queue : Queue α} (h : ring.Holds 0 queue)
    (items : Block α) (chunk : Nat) (note : κ → Nat → κ) (memory : κ) :
    ∃ pushed batched chunked,
      ring.pushAll items.toList = .ok (min items.size queue.free, pushed) ∧
      ring.writeBatch items = .ok (min items.size queue.free, batched) ∧
      ring.writeChunked items chunk (.listening note) memory =
        .ok (.returned (min items.size queue.free),
          (splits (chunkLength chunk items.size) (min items.size queue.free)).foldl note memory,
          chunked) ∧
      pushed.contents = ring.contents ++ items.toList.take queue.free ∧
      batched.Agrees pushed ∧ chunked.Agrees pushed := by
  rcases h.pushAll items.toList with ⟨pushed, hpush, hpushed, hpushedTail⟩
  rcases h.writeBatch items with ⟨batched, hbatch, hbatched, hbatchedTail⟩
  rcases h.writeChunked_listening items chunk note memory with
    ⟨chunked, hchunk, hchunked, hchunkedTail⟩
  rw [items.length_toList] at hpush
  rw [Queue.writeBatch_eq_offered] at hbatch hbatched
  rw [← Queue.offered_block] at hchunked
  refine ⟨pushed, batched, chunked, hpush, hbatch, hchunk, ?_, ?_, ?_⟩
  · rw [hpushed.contents_eq, h.contents_eq, Queue.offered, Queue.items_record, Queue.items_append]
  · exact hbatched.agrees hpushed (hbatchedTail.trans hpushedTail.symm)
  · exact hchunked.agrees hpushed (hchunkedTail.trans hpushedTail.symm)

end RingBuffer

/-! ## Growing for all of them -/

def Capacity.enlarged (capacity total : Nat) : Nat :=
  if total ≤ capacity then capacity else roundUp total

namespace Capacity

theorem enlarged_of_le {capacity total : Nat} (h : total ≤ capacity) :
    enlarged capacity total = capacity :=
  if_pos h

theorem le_enlarged (capacity total : Nat) : capacity ≤ enlarged capacity total := by
  have hround := le_roundUp total
  unfold enlarged
  split <;> omega

/-- Growing step by step ends where growing at once does. -/
theorem enlarged_enlarged (capacity : Nat) {part total : Nat} (hle : part ≤ total) :
    enlarged (enlarged capacity part) total = enlarged capacity total := by
  by_cases hpart : part ≤ capacity
  · rw [enlarged_of_le hpart]
  · unfold enlarged
    rw [if_neg hpart, if_neg (show ¬ total ≤ capacity by omega)]
    split
    · rename_i henough
      have hround := leastPower_roundUp part
      apply LeastPower.eq_roundUp
      exact ⟨hround.isPower, henough, fun k hk => hround.least k (Nat.le_trans hle hk)⟩
    · rfl

end Capacity

namespace Queue

/-- The queue has taken all of the items, however it has grown for them. -/
structure Absorbs (items : List α) (shown : Nat) (before : Queue α) (shown' : Nat)
    (after : Queue α) : Prop where
  items_eq : after.items = before.items ++ items
  capacity_eq :
    after.capacity = Capacity.enlarged before.capacity (before.items.length + items.length)
  shown_eq : shown' = if after.capacity = before.capacity then shown else after.capacity
  metered_eq : after.metered = before.metered
  counters_eq : after.counters =
    { (before.append items).counters with growths := after.counters.growths }

theorem Absorbs.nil (shown : Nat) {queue : Queue α}
    (hlength : queue.items.length ≤ queue.capacity) : queue.Absorbs [] shown shown queue := by
  refine ⟨(List.append_nil _).symm, (Capacity.enlarged_of_le hlength).symm, (if_pos rfl).symm, rfl,
    ?_⟩
  rw [append_nil]

theorem Absorbs.trans {first second : List α} {a b c : Queue α} {i j k : Nat}
    (hab : a.Absorbs first i j b) (hbc : b.Absorbs second j k c) :
    a.Absorbs (first ++ second) i k c := by
  have hcapacity : c.capacity =
      Capacity.enlarged a.capacity (a.items.length + (first ++ second).length) := by
    rw [hbc.capacity_eq, hab.capacity_eq, hab.items_eq, List.length_append, List.length_append,
      ← Nat.add_assoc, Capacity.enlarged_enlarged _ (Nat.le_add_right _ _)]
  refine ⟨?_, hcapacity, ?_, hbc.metered_eq.trans hab.metered_eq, ?_⟩
  · rw [hbc.items_eq, hab.items_eq, List.append_assoc]
  · have hfirst := Capacity.le_enlarged a.capacity (a.items.length + first.length)
    have hsecond := Capacity.le_enlarged b.capacity (b.items.length + second.length)
    rw [← hab.capacity_eq] at hfirst
    rw [← hbc.capacity_eq] at hsecond
    rw [hbc.shown_eq, hab.shown_eq]
    by_cases hsame : c.capacity = b.capacity
    · rw [if_pos hsame, hsame]
    · rw [if_neg hsame, if_neg (show ¬ c.capacity = a.capacity by omega)]
  · rcases a with ⟨capacity, items, metered, counters⟩
    rcases b with ⟨_, _, _, mid⟩
    have hmid := hab.counters_eq
    cases hab.metered_eq
    rw [hbc.counters_eq]
    simp only at hmid
    rw [hmid]
    cases metered <;>
      simp [append, record, Counters.add, UInt64.ofNat_add, UInt64.add_assoc]

variable [Item α]

theorem absorbs_of_grow {queue : Queue α} (hvalid : Capacity.isValid queue.capacity = true)
    (hlength : queue.items.length ≤ queue.capacity) {limit : Nat} {items : List α}
    {growth : Option Growth} (hgrow : (queue.grow limit items.length).1 = .ok growth)
    (shown : Nat) :
    queue.Absorbs items shown (shownAfter shown (queue.grow limit items.length).1)
      ((queue.grow limit items.length).2.2.append items) := by
  by_cases hroom : queue.items.length + items.length ≤ queue.capacity
  · rw [grow_of_room limit hroom]
    refine ⟨queue.items_append items, ?_, ?_, queue.metered_append items, rfl⟩
    · rw [capacity_append, Capacity.enlarged_of_le hroom]
    · rw [capacity_append, if_pos rfl]
      rfl
  · have hshort : queue.capacity < queue.items.length + items.length := Nat.lt_of_not_le hroom
    by_cases hstuck : Stuck α limit (queue.items.length + items.length)
    · rw [grow_of_stuck hvalid hlength rfl hshort hstuck] at hgrow
      cases hgrow
    · rw [grow_of_not_stuck hvalid hlength rfl hshort hstuck]
      have hround := Capacity.le_roundUp (queue.items.length + items.length)
      refine ⟨by simp, by simp [Capacity.enlarged, hroom], ?_, by simp, ?_⟩
      · simp only [capacity_append, capacity_record]
        rw [if_neg (by omega)]
        rfl
      · rcases queue with ⟨capacity, present, metered, counters⟩
        cases metered <;> rfl

theorem absorbs_insertGrowing {queue : Queue α} (hvalid : Capacity.isValid queue.capacity = true)
    (hlength : queue.items.length ≤ queue.capacity) {limit : Nat} {item : α}
    {growth : Option Growth} (hresult : (queue.insertGrowing limit item).1 = .ok growth)
    (shown : Nat) :
    queue.Absorbs [item] shown (shownAfter shown (queue.grow limit 1).1)
      (queue.insertGrowing limit item).2.2 := by
  have hgrown : ∀ growth, (queue.grow limit [item].length).1 = .ok growth → _ :=
    fun _ hgrow => absorbs_of_grow hvalid hlength hgrow shown
  rw [List.length_singleton] at hgrown
  unfold insertGrowing at hresult ⊢
  generalize queue.grow limit 1 = answer at hresult hgrown ⊢
  rcases answer with ⟨error | growth, events, grown⟩
  · cases hresult
  · exact hgrown growth rfl

theorem absorbs_writeGrowing {queue : Queue α} (hvalid : Capacity.isValid queue.capacity = true)
    (hlength : queue.items.length ≤ queue.capacity) {limit : Nat} {items : Block α}
    {growth : Option Growth} (hresult : (queue.writeGrowing limit items).1 = .ok growth)
    (shown : Nat) :
    queue.Absorbs items.toList shown (shownAfter shown (queue.grow limit items.size).1)
      (queue.writeGrowing limit items).2.2 := by
  have hgrown : ∀ growth, (queue.grow limit items.toList.length).1 = .ok growth → _ :=
    fun _ hgrow => absorbs_of_grow hvalid hlength hgrow shown
  rw [items.length_toList] at hgrown
  unfold writeGrowing at hresult ⊢
  generalize queue.grow limit items.size = answer at hresult hgrown ⊢
  rcases answer with ⟨error | growth, events, grown⟩
  · cases hresult
  · exact hgrown growth rfl

/-- Insert the items one by one, up to the first insert that fails. The capacity that is shown
comes along. -/
def insertEach (limit : Nat) : List α → Nat → Queue α → Except (InsertError α) (Nat × Queue α)
  | [], shown, queue => .ok (shown, queue)
  | item :: rest, shown, queue =>
      match queue.insertGrowing limit item with
      | (.error error, _, _) => .error error
      | (.ok _, _, next) => insertEach limit rest (shownAfter shown (queue.grow limit 1).1) next

theorem writeChunkedGrowing_listening (limit : Nat) (items : Block α) (chunk : Nat)
    (note : κ → Nat → κ) (memory : κ) (shown : Nat) (queue : Queue α) :
    ∃ later,
      queue.writeChunkedGrowing limit items chunk (fun _ => .listening note) memory shown =
        (later, .returned (queue.writeGrowing limit items).1,
          (queue.writeGrowing limit items).2) := by
  have hroom : ∀ growth, (queue.grow limit items.size).1 = .ok growth →
      items.size ≤ (queue.grow limit items.size).2.2.free := fun _ => grow_ok
  unfold writeChunkedGrowing writeGrowing
  generalize queue.grow limit items.size = answer at hroom ⊢
  rcases answer with ⟨error | growth, events, grown⟩
  · exact ⟨memory, rfl⟩
  · have hfit := hroom growth rfl
    have hall : items.toList.take grown.free = items.toList :=
      List.take_of_length_le (by rw [items.length_toList]; exact hfit)
    simp only [writeChunked_listening, hall, Nat.min_eq_left hfit, Nat.sub_self,
      record_rejected_zero]
    exact ⟨_, rfl⟩

end Queue

namespace Growable

def insertEach [Item α] (limit : Nat) :
    List α → Growable α → Checked (Except (InsertError α) (Growable α))
  | [], growable => .ok (.ok growable)
  | item :: rest, growable => do
      let written ← insert limit item (.now growable)
      match written.result with
      | .error error => .ok (.error error)
      | .ok _ => insertEach limit rest written.growable

end Growable

variable [Item α]

namespace RingBuffer.Holds

variable {ring : RingBuffer α} {queue : Queue α}

/-- Inserts one by one do to a ring what they do to its queue, and if they all succeed they have
taken all of the items. -/
theorem insertEach (h : ring.Holds 0 queue) (limit shown : Nat) (items : List α) :
    ∃ outcome, Growable.insertEach limit items ⟨ring, shown⟩ = .ok outcome ∧
      outcome.map (fun each => (each.shown, each.ring.queue)) =
        Queue.insertEach limit items shown queue ∧
      ∀ each, outcome = .ok each →
        each.ring.Invariant 0 ∧ queue.Absorbs items shown each.shown each.ring.queue := by
  induction items generalizing ring queue shown with
  | nil =>
      cases h.eq_queue
      refine ⟨_, rfl, rfl, ?_⟩
      rintro each ⟨⟩
      exact ⟨h.invariant, .nil shown h.length_le⟩
  | cons item rest ih =>
      rcases h.reserve limit 1 shown (.inl rfl) with ⟨reserved, hreserve, hreserved, -⟩
      rcases insert_of_reserve item hreserve hreserved with ⟨mid, hinsert, hmid, -⟩
      rcases hanswer : queue.insertGrowing limit item with ⟨error | growth, events, later⟩
      · simp only [Growable.insertEach, Queue.insertEach, hinsert, hanswer, ok_bind]
        exact ⟨_, rfl, rfl, by rintro each ⟨⟩⟩
      · have hresult : (queue.insertGrowing limit item).1 = .ok growth := congrArg Prod.fst hanswer
        have hfirst := Queue.absorbs_insertGrowing h.capacity_valid h.length_le hresult shown
        rw [hanswer] at hmid hfirst
        rcases ih hmid (Queue.shownAfter shown (queue.grow limit 1).1) with
          ⟨outcome, hrest, hsame, hall⟩
        simp only [Growable.insertEach, Queue.insertEach, hinsert, hanswer, ok_bind]
        refine ⟨outcome, hrest, hsame, ?_⟩
        intro each heach
        rcases hall each heach with ⟨hsound, habsorbs⟩
        exact ⟨hsound, hfirst.trans habsorbs⟩

theorem batches_agree (h : ring.Holds 0 queue) (limit shown : Nat) (items : Block α) (chunk : Nat)
    (note : κ → Nat → κ) (memory : κ) :
    ∃ later result events shown' batched chunked,
      Growable.writeBatch limit items (.now ⟨ring, shown⟩) =
        .ok ⟨result, events, ⟨batched, shown'⟩⟩ ∧
      Growable.writeChunked limit items chunk (fun _ => .listening note) memory
          (.now ⟨ring, shown⟩) = .ok (later, ⟨.returned result, events, ⟨chunked, shown'⟩⟩) ∧
      chunked.Agrees batched ∧
      ∀ growth, result = .ok growth →
        ∃ next, batched.Holds 0 next ∧ queue.Absorbs items.toList shown shown' next := by
  rcases h.reserve limit items.size shown (.inl rfl) with ⟨reserved, hreserve, hreserved, -⟩
  rcases writeBatch_of_reserve hreserve hreserved with ⟨batched, hbatch, hbatched, hbatchedTail⟩
  rcases writeChunked_of_reserve (fun _ _ hsame => hsame) (fun _ => .listening note)
    (fun _ => .listening note) (Callback.listening_tracks tail 0 note)
    (fun _ _ queue => Nat.le_refl queue.free) rfl hreserve hreserved chunk memory with
    ⟨chunked, hchunk, hchunked, hchunkedTail⟩
  rcases queue.writeChunkedGrowing_listening limit items chunk note memory shown with
    ⟨later, hsame⟩
  rw [hsame] at hchunk hchunked
  refine ⟨later, _, _, _, batched, chunked, hbatch, hchunk,
    hchunked.agrees hbatched (hchunkedTail.trans hbatchedTail.symm), ?_⟩
  intro growth hresult
  exact ⟨_, hbatched, Queue.absorbs_writeGrowing h.capacity_valid h.length_le hresult shown⟩

end RingBuffer.Holds

namespace RingBuffer

/-- Items come to the same however they are written. A ring that refuses accepts as many of them
one by one, as a batch or in chunks, and is left with the same slots, cursors and counters; the
callback is told the length of a chunk each time, but for the last one. On a growable ring a batch
is written alike with and without chunks; and if there is the memory for the batch and for the
items one by one, the ring ends with the same items, capacity and counters either way, but for the
number of growths. -/
theorem write_paths_agree {ring : RingBuffer α} (h : ring.Invariant 0) (items : Block α)
    (chunk : Nat) (note : κ → Nat → κ) (memory : κ) (limit limit' shown : Nat) :
    (∃ room pushed batched chunked,
      let count := min items.size room
      let lengths := splits (chunkLength chunk items.size) count
      ring.free = .ok room ∧
      ring.pushAll items.toList = .ok (count, pushed) ∧
      ring.writeBatch items = .ok (count, batched) ∧
      ring.writeChunked items chunk (.listening note) memory =
        .ok (.returned count, lengths.foldl note memory, chunked) ∧
      (∀ n ∈ lengths.dropLast, n = chunk) ∧
      pushed.contents = ring.contents ++ items.toList.take room ∧
      batched.Agrees pushed ∧ chunked.Agrees pushed) ∧
    (∃ later result events shown' batched chunked outcome,
      Growable.writeBatch limit items (.now ⟨ring, shown⟩) =
        .ok ⟨result, events, ⟨batched, shown'⟩⟩ ∧
      Growable.writeChunked limit items chunk (fun _ => .listening note) memory
        (.now ⟨ring, shown⟩) = .ok (later, ⟨.returned result, events, ⟨chunked, shown'⟩⟩) ∧
      chunked.Agrees batched ∧
      Growable.insertEach limit' items.toList ⟨ring, shown⟩ = .ok outcome ∧
      ∀ growth each, result = .ok growth → outcome = .ok each →
        each.ring.contents = batched.contents ∧ each.ring.capacity = batched.capacity ∧
        each.shown = shown' ∧
        each.ring.counters =
          { batched.counters with growths := each.ring.counters.growths }) := by
  have hring := h.holds
  constructor
  · rcases hring.offers_agree items chunk note memory with
      ⟨pushed, batched, chunked, hpush, hbatch, hchunk, hcontents, hbatched, hchunked⟩
    have hlengths : ∀ n ∈ (splits (chunkLength chunk items.size)
        (min items.size ring.queue.free)).dropLast, n = chunk :=
      fun _ => eq_of_mem_dropLast_splits_chunkLength (Nat.min_le_left _ _)
    exact ⟨_, pushed, batched, chunked, hring.free_eq, hpush, hbatch, hchunk, hlengths, hcontents,
      hbatched, hchunked⟩
  · rcases hring.batches_agree limit shown items chunk note memory with
      ⟨later, result, events, shown', batched, chunked, hbatch, hchunk, hagrees, hall⟩
    rcases hring.insertEach limit' shown items.toList with ⟨outcome, heach, -, hone⟩
    refine ⟨later, result, events, shown', batched, chunked, outcome, hbatch, hchunk, hagrees,
      heach, ?_⟩
    intro growth each hresult houtcome
    rcases hall growth hresult with ⟨once, honce, hatOnce⟩
    rcases hone each houtcome with ⟨hsound, hsteps⟩
    have hstepped := hsound.holds
    have hcapacity : each.ring.queue.capacity = once.capacity :=
      hsteps.capacity_eq.trans hatOnce.capacity_eq.symm
    refine ⟨?_, ?_, ?_, ?_⟩
    · rw [hstepped.contents_eq, honce.contents_eq, hsteps.items_eq, hatOnce.items_eq]
    · rw [hstepped.capacity_eq, honce.capacity_eq, hcapacity]
    · rw [hsteps.shown_eq, hatOnce.shown_eq, hcapacity]
    · rw [hstepped.counters_eq, honce.counters_eq, hatOnce.counters_eq]
      exact hsteps.counters_eq

/-- Nine items for a ring of four slots, one of which is taken, whose cursors wrap in the second
chunk. A ring that refuses takes three of them. One that grows makes one step of it for the batch,
and two for the items one by one. -/
theorem write_paths_agree_wrapping :
    let fresh : RingBuffer Tracked :=
      ⟨18446744073709551614, 18446744073709551614, 3, .empty 4, .counting, .zero⟩
    let items : Block Tracked := .ofArray #[⟨2, false⟩, ⟨3, true⟩, ⟨4, false⟩, ⟨5, false⟩,
      ⟨6, false⟩, ⟨7, false⟩, ⟨8, false⟩, ⟨9, false⟩, ⟨10, false⟩]
    let told : Callback Tracked Nat (List Nat) := .listening fun told n => told ++ [n]
    ∃ ring pushed batched chunked grown stepped,
      fresh.push ⟨1, false⟩ = .ok (none, ring) ∧ ring.Invariant 0 ∧
      ring.pushAll items.toList = .ok (3, pushed) ∧ ring.writeBatch items = .ok (3, batched) ∧
      ring.writeChunked items 2 told [] = .ok (.returned 3, [2, 1], chunked) ∧
      batched.Agrees pushed ∧ chunked.Agrees pushed ∧
      Growable.writeBatch 256 items (.now (.ofRing ring)) =
        .ok ⟨.ok (some ⟨4, 16⟩), [.grew ⟨4, 16⟩], grown⟩ ∧
      Growable.insertEach 256 items.toList (.ofRing ring) = .ok (.ok stepped) ∧
      stepped.ring.contents = grown.ring.contents ∧ stepped.ring.capacity = 16 ∧
      stepped.ring.counters = { grown.ring.counters with growths := 2 } ∧
      grown.ring.counters.growths = 1 := by
  intro fresh items told
  let queue : Queue Tracked := ⟨4, [⟨1, false⟩], true, ⟨1, 0, 0, 0, 0⟩⟩
  have hfresh : create 64 4 .counting 18446744073709551614 = .ok fresh := rfl
  rcases (holds_of_create hfresh).push ⟨1, false⟩ with ⟨ring, hpush, hring, -⟩
  have hpush : fresh.push ⟨1, false⟩ = .ok (none, ring) := hpush
  have hring : ring.Holds 0 queue := hring
  have hsound : ring.Invariant 0 := hring.invariant
  have hfree : ring.free = .ok 3 := hring.free_eq
  have hfour : ring.capacity = 4 := hring.capacity_eq
  rcases write_paths_agree hsound items 2 (fun told n => told ++ [n]) ([] : List Nat) 256 256
    ring.capacity with ⟨⟨room, pushed, batched, chunked, hroom, hpushed, hbatched, hchunked, -, -,
      hagrees, hagrees'⟩, later, result, events, shown, grown, grown', outcome, hgrown, -, -,
      hstepped, hsame⟩
  cases hfree.symm.trans hroom
  have hlengths : (splits (chunkLength 2 items.size) (min items.size 3)).foldl
      (fun told n => told ++ [n]) [] = [2, 1] := by
    decide
  rw [hlengths] at hchunked
  -- the queue of the ring shows how the growths go
  have honce : queue.writeGrowing 256 items =
      (.ok (some ⟨4, 16⟩), [.grew ⟨4, 16⟩],
        ⟨16, ⟨1, false⟩ :: items.toList, true, ⟨10, 0, 0, 0, 1⟩⟩) := by
    cbv
  have heach : Queue.insertEach 256 items.toList 4 queue =
      .ok (16, ⟨16, ⟨1, false⟩ :: items.toList, true, ⟨10, 0, 0, 0, 2⟩⟩) := by
    cbv
  rcases hring.reserve 256 items.size ring.capacity (.inl rfl) with
    ⟨reserved, hreserve, hreserved, -⟩
  rcases writeBatch_of_reserve hreserve hreserved with ⟨batch, hbatch, hgrownHolds, -⟩
  rw [honce] at hbatch hgrownHolds
  cases hgrown.symm.trans hbatch
  have hcounters : grown.counters = ⟨10, 0, 0, 0, 1⟩ := hgrownHolds.counters_eq
  rcases hring.insertEach 256 ring.capacity items.toList with ⟨_, hinsert, hmap, -⟩
  cases hstepped.symm.trans hinsert
  rw [hfour, heach] at hmap
  cases outcome with
  | error error => cases hmap
  | ok stepped =>
      have hqueue := (Prod.mk.inj (Except.ok.inj hmap)).2
      rcases hsame _ stepped rfl rfl with ⟨hcontents, -, -, -⟩
      refine ⟨ring, pushed, batched, chunked, _, stepped, hpush, hsound, hpushed, hbatched,
        hchunked, hagrees, hagrees', hgrown, hstepped, hcontents, congrArg Queue.capacity hqueue,
        ?_, ?_⟩
      · rw [hcounters]
        exact congrArg Queue.counters hqueue
      · rw [hcounters]

end RingBuffer

end RingChannel
