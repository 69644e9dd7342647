import RingChannel.Proofs.Queue.Calm

/-!
# What a plain list answers

A consumer call whose code is calm, said of a list: how many items it takes from the front, and
what it answers. Neither depends on how the list came about or on how much room there is behind
it.
-/

namespace RingChannel

variable {α : Type}

namespace ConsumerCall

def Calm : ConsumerCall α → Prop
  | .drain _ panicAt | .readChunked _ _ panicAt => panicAt = none
  | _ => True

def taken (items : List α) : ConsumerCall α → Nat
  | .remove | .removeWithBackoff | .removeUntil _ | .removeInto _ => min 1 items.length
  | .discard count | .drain count _ => min count items.length
  | .discardExact count => if count ≤ items.length then count else 0
  | .clear => items.length
  | .readBatch buffer | .readChunked buffer _ _ => min buffer.size items.length
  | .readExact buffer => if buffer.size ≤ items.length then buffer.size else 0
  | .peek | .peekAt _ | .hold _ | .peekBatch _ | .observe => 0

def reply (seen : Observation) (items : List α) : ConsumerCall α → Reply α
  | .remove | .removeWithBackoff | .removeUntil _ => .removed items.head?
  | .removeInto target => .removedInto (.returned !items.isEmpty) (items.headD target)
  | .peek => .seen items.head?
  | .peekAt index => .seen items[index]?
  | .hold index => .held items[index]?
  | .discard count => .discarded (.returned (min count items.length))
  | .discardExact count => .discardedExact (.returned (count ≤ items.length))
  | .clear => .discarded (.returned items.length)
  | .drain count _ => .drained (.returned (min count items.length)) (items.take count)
  | .readBatch buffer | .peekBatch buffer =>
      .readBatch (min buffer.size items.length) (buffer.cover 0 (items.take buffer.size))
  | .readExact buffer =>
      if buffer.size ≤ items.length then .readExact true (buffer.cover 0 (items.take buffer.size))
      else .readExact false buffer
  | .readChunked buffer chunk _ =>
      let count := min buffer.size items.length
      .readChunks (.returned count) (splits (RingBuffer.chunkLength chunk buffer.size) count)
        (buffer.cover 0 (items.take buffer.size))
  | .observe => .observed seen

def destroyed (items : List α) : ConsumerCall α → List α
  | .removeInto target => if items.isEmpty then [] else [target]
  | .discard count => items.take count
  | .discardExact count => if count ≤ items.length then items.take count else []
  | .clear => items
  | _ => []

def events (items : List α) : ConsumerCall α → List Event
  | .clear => [.cleared items.length]
  | _ => []

def tally (items : List α) (call : ConsumerCall α) : Tally :=
  match call with
  | .discard _ | .discardExact _ | .clear => .discarded (call.taken items)
  | _ => .removed (call.taken items)

end ConsumerCall

namespace Queue

def served (call : ConsumerCall α) (queue : Queue α) : Queue α :=
  (queue.behead (call.taken queue.items)).record (call.tally queue.items)

variable [Item α] (hsafe : ∀ item : α, Item.explodes item = false)

include hsafe

/-- A consumer call with calm code, on items that can be destroyed, answers as a list does. -/
theorem consume_calm {call : ConsumerCall α} (hcalm : call.Calm) (face : Face) (queue : Queue α) :
    queue.consume face .quiet call =
      (⟨call.reply (queue.observe face .consumer) queue.items, call.destroyed queue.items,
        call.events queue.items, []⟩, queue.served call) := by
  have hnothing : queue.behead 0 = queue := behead_zero queue
  have hdiscard : ∀ count, queue.discard count = _ :=
    fun _ => discard_of_safe fun item _ => hsafe item
  cases call with
  | remove | removeWithBackoff | removeUntil _ =>
      simp only [consume, pop, served, ConsumerCall.taken, ConsumerCall.tally,
        behead_record_removed]
      rfl
  | removeInto target =>
      simp only [consume, popInto, served, ConsumerCall.taken, ConsumerCall.tally,
        behead_record_removed, ConsumerCall.reply, ConsumerCall.destroyed, ConsumerCall.events]
      cases hitems : queue.items with
      | nil => simp [remove_of_nil hitems]
      | cons item rest => simp [hsafe target]
  | peek | peekAt _ | peekBatch _ | observe =>
      simp [consume, served, ConsumerCall.taken, ConsumerCall.tally, ConsumerCall.reply,
        ConsumerCall.destroyed, ConsumerCall.events, Performed.plain, peekBatch,
        List.head?_eq_getElem?]
  | hold index =>
      simp only [consume, hold, served, ConsumerCall.taken, ConsumerCall.tally, hnothing,
        record_removed_zero, ConsumerCall.reply, ConsumerCall.destroyed, ConsumerCall.events]
      cases queue.items[index]? with
      | none => rfl
      | some item => rfl
  | discard count =>
      simp only [consume, hdiscard, served, ConsumerCall.taken, ConsumerCall.tally]
      rfl
  | discardExact count =>
      simp only [consume, discardExact, hdiscard, served, ConsumerCall.taken,
        ConsumerCall.tally, ConsumerCall.reply, ConsumerCall.destroyed, ConsumerCall.events]
      by_cases hshort : queue.items.length < count
      · have hnot : ¬ count ≤ queue.items.length := by omega
        simp [hshort, hnot]
      · have hle : count ≤ queue.items.length := by omega
        simp [hshort, hle, Outcome.map]
  | clear =>
      simp only [consume, hdiscard, served, ConsumerCall.taken, ConsumerCall.tally,
        Nat.min_self, List.take_length]
      rfl
  | drain limit panicAt =>
      cases (show panicAt = none from hcalm)
      simp only [consume, drain, drainRun_calm, Nat.zero_add, List.length_take, served,
        ConsumerCall.taken, ConsumerCall.tally, Journal.toList_hear_empty, Journal.nested_hear]
      rfl
  | readBatch buffer =>
      simp only [consume, readBatch, served, ConsumerCall.taken, ConsumerCall.tally,
        behead_record_removed]
      rfl
  | readExact buffer =>
      simp only [consume, readExact, served, ConsumerCall.taken, ConsumerCall.tally,
        ConsumerCall.reply, ConsumerCall.destroyed, ConsumerCall.events]
      by_cases hshort : queue.items.length < buffer.size
      · have hnot : ¬ buffer.size ≤ queue.items.length := by omega
        simp [hshort, hnot, Performed.plain]
      · have hle : buffer.size ≤ queue.items.length := by omega
        simp [hshort, hle, Performed.plain, remove]
  | readChunked buffer chunk panicAt =>
      cases (show panicAt = none from hcalm)
      simp only [consume, readChunked_calm, served, ConsumerCall.taken, ConsumerCall.tally,
        behead_record_removed, Journal.toList_hear_empty, Journal.nested_hear]
      rfl

end Queue

end RingChannel
