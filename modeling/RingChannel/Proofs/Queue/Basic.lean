import RingChannel.Growable
import RingChannel.RingBuffer.Read
import RingChannel.RingBuffer.Release

/-!
# Queues on a list

What a ring is for, without slots and cursors: the unread items as a list, the capacity that bounds
it, and the counts. The operations are those of a ring, each said by `take`, `drop` and `++`. None
of them can fail, so a ring that does the same as a queue breaks no rule.
-/

namespace RingChannel

variable {α κ : Type}

namespace Block

/-- Put `items` over the entries from `start` on, as far as there are entries. -/
def cover (block : Block α) (start : Nat) (items : List α) : Block α :=
  ⟨block.size, fun i =>
    if h : start ≤ i ∧ i - start < items.length then items[i - start] else block.entry i⟩

theorem overwrite_of_le {block : Block α} {start : Nat} {items : List α}
    (h : start + items.length ≤ block.size) :
    block.overwrite start items = .ok (block.cover start items) := by
  unfold overwrite cover
  simp only [h, if_true, List.size_toArray, List.getElem_toArray]

@[simp] theorem size_cover (block : Block α) (start : Nat) (items : List α) :
    (block.cover start items).size = block.size := rfl

@[simp] theorem cover_nil (block : Block α) (start : Nat) : block.cover start [] = block := by
  simp [cover]

theorem cover_cover (block : Block α) (start : Nat) (first second : List α) :
    (block.cover start first).cover (start + first.length) second =
      block.cover start (first ++ second) := by
  unfold cover
  congr 1
  funext i
  by_cases hsecond : start + first.length ≤ i ∧ i - (start + first.length) < second.length
  · have hboth : start ≤ i ∧ i - start < (first ++ second).length := by
      rw [List.length_append]
      omega
    rw [dif_pos hsecond, dif_pos hboth, List.getElem_append_right (by omega)]
    congr 1
    omega
  · rw [dif_neg hsecond]
    simp only
    by_cases hfirst : start ≤ i ∧ i - start < first.length
    · have hboth : start ≤ i ∧ i - start < (first ++ second).length := by
        rw [List.length_append]
        omega
      rw [dif_pos hfirst, dif_pos hboth, List.getElem_append_left hfirst.2]
    · have hneither : ¬ (start ≤ i ∧ i - start < (first ++ second).length) := by
        rw [List.length_append]
        omega
      rw [dif_neg hfirst, dif_neg hneither]

theorem toList_cover_zero {block : Block α} {items : List α} (hfit : items.length ≤ block.size) :
    (block.cover 0 items).toList = items ++ block.toList.drop items.length := by
  have hover : block.overwrite 0 items = .ok (block.cover 0 items) := overwrite_of_le (by omega)
  rw [toList_of_overwrite hover, List.take_zero, List.nil_append, Nat.zero_add]

theorem take_toList_cover (block : Block α) {items : List α}
    (hfit : items.length ≤ block.size) :
    (block.cover 0 items).toList.take items.length = items := by
  rw [toList_cover_zero hfit, List.take_left]

end Block

/-- Destroy items in order. The first destruction that panics ends it. The answer lists what was
destroyed. -/
def demolish [Item α] (items : List α) : Outcome Unit × List α :=
  (if items.any Item.explodes then .panicked .destructor else .returned (),
    items.take (items.findIdx Item.explodes + 1))

@[simp] theorem demolish_nil [Item α] : demolish ([] : List α) = (.returned (), []) := rfl

theorem demolish_cons [Item α] (item : α) (rest : List α) :
    demolish (item :: rest) =
      if Item.explodes item then (.panicked .destructor, [item])
      else ((demolish rest).1, item :: (demolish rest).2) := by
  unfold demolish
  cases hbomb : Item.explodes item <;> simp [hbomb, List.findIdx_cons]

theorem demolish_of_safe [Item α] {items : List α}
    (hsafe : ∀ item ∈ items, Item.explodes item = false) :
    demolish items = (.returned (), items) := by
  induction items with
  | nil => rfl
  | cons item rest ih =>
      rw [List.forall_mem_cons] at hsafe
      rw [demolish_cons, hsafe.1, ih hsafe.2]
      rfl

theorem panicked_demolish [Item α] {items : List α} {item : α} (hitem : item ∈ items)
    (hexplodes : Item.explodes item = true) : (demolish items).1 = .panicked .destructor :=
  if_pos (List.any_eq_true.2 ⟨item, hitem, hexplodes⟩)

theorem safe_or_explodes [Item α] (items : List α) :
    (∀ item ∈ items, Item.explodes item = false) ∨ ∃ item ∈ items, Item.explodes item = true := by
  cases hany : items.any Item.explodes with
  | false => exact .inl fun item hitem => Bool.eq_false_iff.2 (List.any_eq_false.1 hany item hitem)
  | true => exact .inr (List.any_eq_true.1 hany)

theorem eq_of_demolish_returned [Item α] {items destroyed : List α}
    (h : demolish items = (.returned (), destroyed)) : destroyed = items := by
  induction items generalizing destroyed with
  | nil => cases h; rfl
  | cons item rest ih =>
      rw [demolish_cons] at h
      split at h
      · cases h
      · obtain ⟨houtcome, hdestroyed⟩ := Prod.mk.inj h
        have hrest : (demolish rest).2 = rest := ih (Prod.ext houtcome rfl)
        rw [← hdestroyed, hrest]

theorem prefix_demolish [Item α] (items : List α) : (demolish items).2 <+: items :=
  List.take_prefix _ _

theorem length_demolish_le [Item α] (items : List α) :
    (demolish items).2.length ≤ items.length :=
  (prefix_demolish items).length_le

/-- The unread items, oldest first, with the capacity and the counts. -/
structure Queue (α : Type) where
  capacity : Nat
  items : List α
  metered : Bool
  counters : Counters

namespace Queue

/-- Code of the caller that is told a `β`, has a memory `κ`, and may change the queue. -/
abbrev Reaction (α β κ : Type) :=
  β → κ → Queue α → Signal × κ × Queue α

def empty (capacity : Nat) (metered : Bool) : Queue α :=
  ⟨capacity, [], metered, .zero⟩

def free (queue : Queue α) : Nat :=
  queue.capacity - queue.items.length

def metrics (queue : Queue α) : Counters :=
  if queue.metered then queue.counters else .zero

def record (tally : Tally) (queue : Queue α) : Queue α :=
  if queue.metered then { queue with counters := queue.counters.add tally } else queue

def append (items : List α) (queue : Queue α) : Queue α :=
  record (.inserted items.length) { queue with items := queue.items ++ items }

def behead (count : Nat) (queue : Queue α) : Queue α :=
  { queue with items := queue.items.drop count }

def remove (count : Nat) (queue : Queue α) : Queue α :=
  (queue.behead count).record (.removed (min count queue.items.length))

/-! ## Small steps -/

@[simp] theorem capacity_record (tally : Tally) (queue : Queue α) :
    (queue.record tally).capacity = queue.capacity := by
  unfold record; split <;> rfl

@[simp] theorem items_record (tally : Tally) (queue : Queue α) :
    (queue.record tally).items = queue.items := by
  unfold record; split <;> rfl

@[simp] theorem metered_record (tally : Tally) (queue : Queue α) :
    (queue.record tally).metered = queue.metered := by
  unfold record; split <;> rfl

@[simp] theorem free_record (tally : Tally) (queue : Queue α) :
    (queue.record tally).free = queue.free := by
  simp [free]

@[simp] theorem record_inserted_zero (queue : Queue α) :
    queue.record (.inserted 0) = queue := by
  simp [record, Counters.add]

@[simp] theorem record_removed_zero (queue : Queue α) :
    queue.record (.removed 0) = queue := by
  simp [record, Counters.add]

@[simp] theorem record_discarded_zero (queue : Queue α) :
    queue.record (.discarded 0) = queue := by
  simp [record, Counters.add]

@[simp] theorem record_rejected_zero (queue : Queue α) :
    queue.record (.rejected 0) = queue := by
  simp [record, Counters.add]

@[simp] theorem append_nil (queue : Queue α) : queue.append [] = queue := by
  simp [append]

@[simp] theorem behead_zero (queue : Queue α) : queue.behead 0 = queue := by
  simp [behead]

@[simp] theorem items_append (items : List α) (queue : Queue α) :
    (queue.append items).items = queue.items ++ items := by
  simp [append]

@[simp] theorem capacity_append (items : List α) (queue : Queue α) :
    (queue.append items).capacity = queue.capacity := by
  simp [append]

theorem free_append (items : List α) (queue : Queue α) :
    (queue.append items).free = queue.free - items.length := by
  unfold free
  rw [items_append, capacity_append, List.length_append]
  omega

@[simp] theorem items_behead (count : Nat) (queue : Queue α) :
    (queue.behead count).items = queue.items.drop count := rfl

@[simp] theorem capacity_behead (count : Nat) (queue : Queue α) :
    (queue.behead count).capacity = queue.capacity := rfl

@[simp] theorem items_remove (count : Nat) (queue : Queue α) :
    (queue.remove count).items = queue.items.drop count := by
  simp [remove]

@[simp] theorem capacity_remove (count : Nat) (queue : Queue α) :
    (queue.remove count).capacity = queue.capacity := by
  simp [remove]

@[simp] theorem remove_zero (queue : Queue α) : queue.remove 0 = queue := by
  simp [remove]

theorem remove_min (queue : Queue α) (count : Nat) :
    queue.remove (min count queue.items.length) = queue.remove count := by
  unfold remove behead
  rw [Nat.min_assoc, Nat.min_self, ← List.drop_eq_drop_min]

theorem behead_record_removed (count : Nat) (queue : Queue α) :
    (queue.behead (min count queue.items.length)).record
      (.removed (min count queue.items.length)) = queue.remove count := by
  rw [← remove_min, remove, Nat.min_assoc, Nat.min_self]

theorem remove_of_nil {queue : Queue α} (hnil : queue.items = []) (count : Nat) :
    queue.remove count = queue := by
  obtain ⟨capacity, items, metered, counters⟩ := queue
  cases hnil
  simp [remove, behead]

theorem append_append (queue : Queue α) (first second : List α) :
    (queue.append first).append second = queue.append (first ++ second) := by
  obtain ⟨capacity, items, metered, counters⟩ := queue
  cases metered <;>
    simp [append, record, Counters.add, UInt64.ofNat_add, UInt64.add_assoc]

theorem append_record_rejected (queue : Queue α) (items : List α) (count : Nat) :
    (queue.append items).record (.rejected count) =
      (queue.record (.rejected count)).append items := by
  obtain ⟨capacity, present, metered, counters⟩ := queue
  cases metered <;> simp [append, record, Counters.add]

theorem remove_remove (queue : Queue α) (first second : Nat) :
    (queue.remove first).remove second = queue.remove (first + second) := by
  obtain ⟨capacity, items, metered, counters⟩ := queue
  have hcount : min (first + second) items.length =
      min first items.length + min second (items.length - first) := by omega
  cases metered <;>
    simp [remove, behead, record, Counters.add, List.drop_drop, hcount, UInt64.ofNat_add,
      UInt64.add_assoc]

/-! ## What is counted -/

@[simp] theorem metered_append (items : List α) (queue : Queue α) :
    (queue.append items).metered = queue.metered :=
  metered_record _ _

theorem counters_append (items : List α) (queue : Queue α) :
    (queue.append items).counters =
      if queue.metered then
        { queue.counters with
          inserted := queue.counters.inserted + UInt64.ofNat items.length }
      else queue.counters := by
  unfold append record; split <;> rfl

theorem inserted_append {queue : Queue α} (h : queue.metered = true) (items : List α) :
    (queue.append items).counters.inserted =
      queue.counters.inserted + UInt64.ofNat items.length := by
  rw [counters_append, if_pos h]

theorem rejected_append (items : List α) (queue : Queue α) :
    (queue.append items).counters.rejected = queue.counters.rejected := by
  rw [counters_append]
  split <;> rfl

@[simp] theorem metered_remove (count : Nat) (queue : Queue α) :
    (queue.remove count).metered = queue.metered :=
  metered_record _ _

theorem removed_remove {queue : Queue α} (h : queue.metered = true) {count : Nat}
    (hle : count ≤ queue.items.length) :
    (queue.remove count).counters.removed = queue.counters.removed + UInt64.ofNat count := by
  have hmetered : (queue.behead count).metered = true := h
  unfold remove record
  rw [if_pos hmetered, Nat.min_eq_left hle]
  rfl

theorem discarded_remove (count : Nat) (queue : Queue α) :
    (queue.remove count).counters.discarded = queue.counters.discarded := by
  unfold remove record
  split <;> rfl

/-! ## The producer's side -/

def push (item : α) (queue : Queue α) : Option α × Queue α :=
  if queue.free = 0 then (some item, queue.record (.rejected 1)) else (none, queue.append [item])

def pushWith (make : κ → Queue α → Option α × κ × Queue α) (memory : κ) (queue : Queue α) :
    Outcome Bool × κ × Queue α :=
  if queue.free = 0 then (.returned false, memory, queue.record (.rejected 1))
  else
    match make memory queue with
    | (none, memory, queue) => (.panicked .callback, memory, queue)
    | (some item, memory, queue) => (.returned true, memory, queue.append [item])

def pushRepeatedly (attempts : Nat) (item : α) (queue : Queue α) : Option α × Queue α :=
  if queue.free = 0 then (some item, queue.record (.rejected attempts))
  else (none, queue.append [item])

def writeBatch (items : Block α) (queue : Queue α) : Nat × Queue α :=
  let count := min items.size queue.free
  (count, (queue.record (.rejected (items.size - count))).append (items.toList.take count))

def writeRounds (items : Block α) (chunk : Nat) (onChunk : Reaction α Nat κ) (written : Nat)
    (memory : κ) (queue : Queue α) : Outcome Nat × κ × Queue α :=
  let count := min (min chunk (items.size - written)) queue.free
  if _hcount : count = 0 then (.returned written, memory, queue)
  else
    match onChunk count memory (queue.append ((items.toList.drop written).take count)) with
    | (.proceed, memory, queue) => writeRounds items chunk onChunk (written + count) memory queue
    | (.panic, memory, queue) => (.panicked .callback, memory, queue)
termination_by items.size - written

def writeChunked (items : Block α) (chunk : Nat) (onChunk : Reaction α Nat κ) (memory : κ)
    (queue : Queue α) : Outcome Nat × κ × Queue α :=
  match writeRounds items (RingBuffer.chunkLength chunk items.size) onChunk 0 memory queue with
  | (.panicked cause, memory, queue) => (.panicked cause, memory, queue)
  | (.returned written, memory, queue) =>
      (.returned written, memory, queue.record (.rejected (items.size - written)))

def writeAll (items : Block α) (queue : Queue α) : Bool × Queue α :=
  if queue.free < items.size then (false, queue) else (true, queue.append items.toList)

/-! ## The consumer's side -/

def pop (queue : Queue α) : Option α × Queue α :=
  (queue.items.head?, queue.remove 1)

theorem pop_of_empty {queue : Queue α} (h : (queue.pop).1 = none) : (queue.pop).2 = queue :=
  queue.remove_of_nil (List.head?_eq_none_iff.1 h) 1

def popInto [Item α] (target : α) (queue : Queue α) : Outcome Bool × α × List α × Queue α :=
  match queue.items.head? with
  | none => (.returned false, target, [], queue)
  | some item =>
      (if Item.explodes target then .panicked .destructor else .returned true,
        item, [target], queue.remove 1)

def hold (index : Nat) (body : α → κ → Queue α → κ × Queue α) (memory : κ) (queue : Queue α) :
    Option α × κ × Queue α :=
  match queue.items[index]? with
  | none => (none, memory, queue)
  | some item => (some item, body item memory queue)

def peekBatch (buffer : Block α) (queue : Queue α) : Nat × Block α :=
  (min buffer.size queue.items.length, buffer.cover 0 (queue.items.take buffer.size))

def readBatch (buffer : Block α) (queue : Queue α) : Nat × Block α × Queue α :=
  (min buffer.size queue.items.length, buffer.cover 0 (queue.items.take buffer.size),
    queue.remove buffer.size)

def readExact (buffer : Block α) (queue : Queue α) : Bool × Block α × Queue α :=
  if queue.items.length < buffer.size then (false, buffer, queue)
  else (true, buffer.cover 0 (queue.items.take buffer.size), queue.remove buffer.size)

def readRounds (chunk : Nat) (onChunk : Reaction α Nat κ) (total done : Nat) (buffer : Block α)
    (memory : κ) (queue : Queue α) : Outcome Nat × Block α × κ × Queue α :=
  let count := min (min chunk (total - done)) queue.items.length
  if _hcount : count = 0 then (.returned done, buffer, memory, queue)
  else
    let buffer := buffer.cover done (queue.items.take count)
    match onChunk count memory (queue.remove count) with
    | (.proceed, memory, queue) =>
        readRounds chunk onChunk total (done + count) buffer memory queue
    | (.panic, memory, queue) => (.panicked .callback, buffer, memory, queue)
termination_by total - done

def readChunked (buffer : Block α) (chunk : Nat) (onChunk : Reaction α Nat κ) (memory : κ)
    (queue : Queue α) : Outcome Nat × Block α × κ × Queue α :=
  readRounds (RingBuffer.chunkLength chunk buffer.size) onChunk buffer.size 0 buffer memory queue

def discard [Item α] (count : Nat) (queue : Queue α) : Outcome Nat × List α × Queue α :=
  match demolish (queue.items.take count) with
  | (.returned _, destroyed) =>
      (.returned destroyed.length, destroyed,
        (queue.behead destroyed.length).record (.discarded destroyed.length))
  | (.panicked cause, destroyed) =>
      (.panicked cause, destroyed, queue.behead destroyed.length)

theorem discard_of_safe [Item α] {queue : Queue α} {count : Nat}
    (hsafe : ∀ item ∈ queue.items.take count, Item.explodes item = false) :
    queue.discard count = (.returned (min count queue.items.length), queue.items.take count,
      (queue.behead (min count queue.items.length)).record
        (.discarded (min count queue.items.length))) := by
  unfold discard
  rw [demolish_of_safe hsafe]
  simp only [List.length_take]

theorem panicked_discard [Item α] {queue : Queue α} {count : Nat} {item : α}
    (hitem : item ∈ queue.items.take count) (hexplodes : Item.explodes item = true) :
    (queue.discard count).1 = .panicked .destructor := by
  have hpanic := panicked_demolish hitem hexplodes
  unfold discard
  generalize demolish (queue.items.take count) = answer at hpanic ⊢
  rcases answer with ⟨outcome, destroyed⟩
  cases hpanic
  rfl

def discardExact [Item α] (count : Nat) (queue : Queue α) : Outcome Bool × List α × Queue α :=
  if queue.items.length < count then (.returned false, [], queue)
  else
    let (outcome, destroyed, queue) := queue.discard count
    (outcome.map fun _ => true, destroyed, queue)

/-- Hand over items one by one while they still stand at the front of the queue. -/
def drainRun (handler : Reaction α α κ) :
    List α → (done : Nat) → κ → Queue α → Outcome Unit × Nat × κ × Queue α
  | [], done, memory, queue => (.returned (), done, memory, queue)
  | item :: rest, done, memory, queue =>
      match handler item memory queue with
      | (.proceed, memory, queue) => drainRun handler rest (done + 1) memory queue
      | (.panic, memory, queue) => (.panicked .callback, done + 1, memory, queue)

def drain (limit : Nat) (handler : Reaction α α κ) (memory : κ) (queue : Queue α) :
    Outcome Nat × κ × Queue α :=
  match drainRun handler (queue.items.take limit) 0 memory queue with
  | (.returned _, done, memory, queue) =>
      (.returned done, memory, (queue.behead done).record (.removed done))
  | (.panicked cause, done, memory, queue) => (.panicked cause, memory, queue.behead done)

/-! ## Growth -/

def regrow [Item α] (limit capacity : Nat) (queue : Queue α) : Except RingError Unit × Queue α :=
  if Store.fits α limit capacity then
    (.ok (), record .growth { queue with capacity := capacity })
  else (.error (.growthFailed queue.capacity capacity), queue)

def grow [Item α] (limit needed : Nat) (queue : Queue α) :
    Except RingError (Option Growth) × List Event × Queue α :=
  if needed ≤ queue.free then (.ok none, [], queue)
  else
    match Capacity.growthTarget queue.capacity queue.items.length needed with
    | none =>
        let error := .growthFailed queue.capacity Capacity.wordMax
        (.error error, [.growthFailed error needed], queue)
    | some target =>
        match queue.regrow limit target with
        | (.error error, queue) => (.error error, [.growthFailed error needed], queue)
        | (.ok _, grown) =>
            let growth := ⟨queue.capacity, target⟩
            (.ok (some growth), [.grew growth], grown)

/-- The capacity that is shown once room has been made. -/
def shownAfter (shown : Nat) : Except RingError (Option Growth) → Nat
  | .ok (some growth) => growth.after
  | .ok none | .error _ => shown

def insertGrowing [Item α] (limit : Nat) (item : α) (queue : Queue α) :
    Except (InsertError α) (Option Growth) × List Event × Queue α :=
  match queue.grow limit 1 with
  | (.error cause, events, queue) => (.error ⟨item, cause⟩, events, queue)
  | (.ok growth, events, queue) => (.ok growth, events, queue.append [item])

def writeGrowing [Item α] (limit : Nat) (items : Block α) (queue : Queue α) :
    Except RingError (Option Growth) × List Event × Queue α :=
  match queue.grow limit items.size with
  | (.error error, events, queue) => (.error error, events, queue)
  | (.ok growth, events, queue) => (.ok growth, events, queue.append items.toList)

def writeChunkedGrowing [Item α] (limit : Nat) (items : Block α) (chunk : Nat)
    (onChunk : Nat → Reaction α Nat κ) (memory : κ) (shown : Nat) (queue : Queue α) :
    κ × Outcome (Except RingError (Option Growth)) × List Event × Queue α :=
  match queue.grow limit items.size with
  | (.error error, events, queue) => (memory, .returned (.error error), events, queue)
  | (.ok growth, events, queue) =>
      match queue.writeChunked items chunk (onChunk (shownAfter shown (.ok growth))) memory with
      | (.panicked cause, memory, queue) => (memory, .panicked cause, events, queue)
      | (.returned _, memory, queue) => (memory, .returned (.ok growth), events, queue)

end Queue

end RingChannel
