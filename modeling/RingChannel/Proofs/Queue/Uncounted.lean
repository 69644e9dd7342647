import RingChannel.Proofs.Queue.InTurn

/-!
# Queues without their counts

No operation looks at the counts. So a call that is made on a queue without its counts is answered
as on the queue itself, but for the counts, and leaves the queue that the call leaves, without its
counts.
-/

namespace RingChannel

variable {α β γ κ : Type}

/-! ## Dropping the counts -/

def Status.uncounted (status : Status) : Status :=
  { status with counters := .zero }

def Observation.uncounted (observation : Observation) : Observation :=
  { observation with counters := .zero }

def Reply.uncounted : Reply α → Reply α
  | .observed observation => .observed observation.uncounted
  | reply => reply

def Answer.uncounted (answer : Answer α) : Answer α :=
  { answer with reply := answer.reply.uncounted, status := answer.status.uncounted }

def uncountedEntry (entry : Nat × List (Answer α)) : Nat × List (Answer α) :=
  (entry.1, entry.2.map Answer.uncounted)

def Journal.uncounted (journal : Journal α β) : Journal α β :=
  { journal with nested := journal.nested.map uncountedEntry }

def Performed.uncounted (performed : Performed α) : Performed α :=
  { performed with
    reply := performed.reply.uncounted, nested := performed.nested.map uncountedEntry }

@[simp] theorem Journal.uncounted_empty : (empty : Journal α β).uncounted = empty := by
  simp [empty, uncounted]

@[simp] theorem Journal.told_uncounted (journal : Journal α β) :
    journal.uncounted.told = journal.told := rfl

@[simp] theorem Journal.nested_uncounted (journal : Journal α β) :
    journal.uncounted.nested.toList = journal.nested.toList.map uncountedEntry :=
  Array.toList_map

theorem Journal.note_uncounted (journal : Journal α β) (argument : β)
    (answers : Option (List (Answer α))) :
    journal.uncounted.note argument (answers.map (List.map Answer.uncounted)) =
      (journal.note argument answers).uncounted := by
  cases answers with
  | none => rfl
  | some answers =>
      simp only [Option.map_some, note, uncounted, Array.map_push]
      rfl

namespace Queue

def uncounted (queue : Queue α) : Queue α :=
  { queue with metered := false, counters := .zero }

@[simp] theorem items_uncounted (queue : Queue α) : queue.uncounted.items = queue.items := rfl

@[simp] theorem capacity_uncounted (queue : Queue α) :
    queue.uncounted.capacity = queue.capacity := rfl

@[simp] theorem free_uncounted (queue : Queue α) : queue.uncounted.free = queue.free := rfl

@[simp] theorem record_uncounted (tally : Tally) (queue : Queue α) :
    queue.uncounted.record tally = (queue.record tally).uncounted := by
  rcases queue with ⟨capacity, items, metered, counters⟩
  cases metered <;> rfl

@[simp] theorem append_uncounted (items : List α) (queue : Queue α) :
    queue.uncounted.append items = (queue.append items).uncounted :=
  record_uncounted (.inserted items.length) { queue with items := queue.items ++ items }

@[simp] theorem behead_uncounted (count : Nat) (queue : Queue α) :
    queue.uncounted.behead count = (queue.behead count).uncounted := rfl

@[simp] theorem remove_uncounted (count : Nat) (queue : Queue α) :
    queue.uncounted.remove count = (queue.remove count).uncounted :=
  record_uncounted (.removed (min count queue.items.length)) (queue.behead count)

/-! ## Loops -/

def forgetting (forget : κ → κ) (result : γ × κ × Queue α) : γ × κ × Queue α :=
  (result.1, forget result.2.1, result.2.2.uncounted)

/-- Code of the caller that does not see the counts. Its memory may still hold some. -/
def Reaction.Blind (forget : κ → κ) (reaction : Reaction α β κ) : Prop :=
  ∀ argument memory queue, reaction argument (forget memory) queue.uncounted =
    forgetting forget (reaction argument memory queue)

variable {forget : κ → κ}

theorem writeRounds_uncounted {reaction : Reaction α Nat κ} (h : reaction.Blind forget)
    (items : Block α) (chunk written : Nat) (memory : κ) (queue : Queue α) :
    queue.uncounted.writeRounds items chunk reaction written (forget memory) =
      forgetting forget (queue.writeRounds items chunk reaction written memory) := by
  fun_induction Queue.writeRounds items chunk reaction written memory queue with
  | case1 written memory queue count hcount =>
      rw [writeRounds]
      exact dif_pos hcount
  | case2 written memory queue count hcount memory' queue' hrun ih =>
      -- the room does not depend on the counts, so the same chunk is written
      have hround := h count memory (queue.append ((items.toList.drop written).take count))
      rw [hrun, ← append_uncounted] at hround
      rw [writeRounds]
      refine (dif_neg hcount).trans ?_
      simp only [free_uncounted]
      rw [hround]
      exact ih
  | case3 written memory queue count hcount memory' queue' hrun =>
      have hround := h count memory (queue.append ((items.toList.drop written).take count))
      rw [hrun, ← append_uncounted] at hround
      rw [writeRounds]
      refine (dif_neg hcount).trans ?_
      simp only [free_uncounted]
      rw [hround]
      rfl

theorem readRounds_uncounted {reaction : Reaction α Nat κ} (h : reaction.Blind forget)
    (chunk total done : Nat) (buffer : Block α) (memory : κ) (queue : Queue α) :
    queue.uncounted.readRounds chunk reaction total done buffer (forget memory) =
      Prod.map id (forgetting forget)
        (queue.readRounds chunk reaction total done buffer memory) := by
  fun_induction Queue.readRounds chunk reaction total done buffer memory queue with
  | case1 done buffer memory queue count hcount =>
      rw [readRounds]
      exact dif_pos hcount
  | case2 =>
      rename_i done buffer memory queue count hcount buffer' memory' queue' hrun ih
      have hround := h count memory (queue.remove count)
      rw [hrun, ← remove_uncounted] at hround
      rw [readRounds]
      refine (dif_neg hcount).trans ?_
      simp only [items_uncounted]
      rw [hround]
      exact ih
  | case3 =>
      rename_i done buffer memory queue count hcount buffer' memory' queue' hrun
      have hround := h count memory (queue.remove count)
      rw [hrun, ← remove_uncounted] at hround
      rw [readRounds]
      refine (dif_neg hcount).trans ?_
      simp only [items_uncounted]
      rw [hround]
      rfl

theorem drainRun_uncounted {reaction : Reaction α α κ} (h : reaction.Blind forget)
    (items : List α) (done : Nat) (memory : κ) (queue : Queue α) :
    queue.uncounted.drainRun reaction items done (forget memory) =
      Prod.map id (forgetting forget) (queue.drainRun reaction items done memory) := by
  induction items generalizing done memory queue with
  | nil => rfl
  | cons item rest ih =>
      have hround := h item memory queue
      unfold drainRun
      rw [hround]
      generalize reaction item memory queue = answer
      rcases answer with ⟨_ | _, memory', queue'⟩
      · exact ih (done + 1) memory' queue'
      · rfl

theorem writeChunked_uncounted {reaction : Reaction α Nat κ} (h : reaction.Blind forget)
    (items : Block α) (chunk : Nat) (memory : κ) (queue : Queue α) :
    queue.uncounted.writeChunked items chunk reaction (forget memory) =
      forgetting forget (queue.writeChunked items chunk reaction memory) := by
  unfold writeChunked
  rw [writeRounds_uncounted h]
  generalize queue.writeRounds items (RingBuffer.chunkLength chunk items.size) reaction 0 memory =
    answer
  rcases answer with ⟨_ | _, memory', queue'⟩
  · simp only [forgetting, record_uncounted]
  · rfl

theorem drain_uncounted {reaction : Reaction α α κ} (h : reaction.Blind forget) (limit : Nat)
    (memory : κ) (queue : Queue α) :
    queue.uncounted.drain limit reaction (forget memory) =
      forgetting forget (queue.drain limit reaction memory) := by
  unfold drain
  rw [items_uncounted, drainRun_uncounted h]
  generalize queue.drainRun reaction (queue.items.take limit) 0 memory = answer
  rcases answer with ⟨_ | _, done, memory', queue'⟩
  · simp only [Prod.map, id, forgetting, behead_uncounted, record_uncounted]
  · simp only [Prod.map, id, forgetting, behead_uncounted]

/-! ## Operations -/

theorem pushRepeatedly_uncounted (attempts : Nat) (item : α) (queue : Queue α) :
    queue.uncounted.pushRepeatedly attempts item =
      Prod.map id uncounted (queue.pushRepeatedly attempts item) := by
  unfold pushRepeatedly
  rw [free_uncounted]
  split
  · rw [record_uncounted]
    rfl
  · rw [append_uncounted]
    rfl

theorem push_uncounted (item : α) (queue : Queue α) :
    queue.uncounted.push item = Prod.map id uncounted (queue.push item) :=
  pushRepeatedly_uncounted 1 item queue

theorem writeBatch_uncounted (items : Block α) (queue : Queue α) :
    queue.uncounted.writeBatch items = Prod.map id uncounted (queue.writeBatch items) := by
  unfold writeBatch
  simp only [free_uncounted, record_uncounted, append_uncounted]
  rfl

theorem writeAll_uncounted (items : Block α) (queue : Queue α) :
    queue.uncounted.writeAll items = Prod.map id uncounted (queue.writeAll items) := by
  unfold writeAll
  rw [free_uncounted]
  split
  · rfl
  · rw [append_uncounted]
    rfl

theorem discard_uncounted [Item α] (count : Nat) (queue : Queue α) :
    queue.uncounted.discard count =
      Prod.map id (Prod.map id uncounted) (queue.discard count) := by
  unfold discard
  rw [items_uncounted]
  generalize demolish (queue.items.take count) = ruins
  rcases ruins with ⟨_ | _, destroyed⟩
  · simp only [behead_uncounted, record_uncounted]
    rfl
  · rfl

theorem discardExact_uncounted [Item α] (count : Nat) (queue : Queue α) :
    queue.uncounted.discardExact count =
      Prod.map id (Prod.map id uncounted) (queue.discardExact count) := by
  unfold discardExact
  rw [items_uncounted, discard_uncounted]
  split
  · rfl
  · rfl

theorem popInto_uncounted [Item α] (target : α) (queue : Queue α) :
    queue.uncounted.popInto target =
      Prod.map id (Prod.map id (Prod.map id uncounted)) (queue.popInto target) := by
  unfold popInto
  rw [items_uncounted, remove_uncounted]
  cases queue.items.head? with
  | none => rfl
  | some item => rfl

theorem regrow_uncounted [Item α] (limit capacity : Nat) (queue : Queue α) :
    queue.uncounted.regrow limit capacity =
      Prod.map id uncounted (queue.regrow limit capacity) := by
  unfold regrow
  split
  · exact congrArg (Prod.mk _) (record_uncounted .growth { queue with capacity := capacity })
  · rfl

theorem grow_uncounted [Item α] (limit needed : Nat) (queue : Queue α) :
    queue.uncounted.grow limit needed =
      Prod.map id (Prod.map id uncounted) (queue.grow limit needed) := by
  unfold grow
  rw [free_uncounted, items_uncounted, capacity_uncounted]
  split
  · rfl
  · cases Capacity.growthTarget queue.capacity queue.items.length needed with
    | none => rfl
    | some target =>
        simp only
        rw [regrow_uncounted]
        generalize queue.regrow limit target = answer
        rcases answer with ⟨_ | _, grown⟩
        · rfl
        · rfl

theorem contend_uncounted (item : α) (max : Nat) (queue : Queue α) :
    queue.uncounted.contend item max = Prod.map id uncounted (queue.contend item max) := by
  unfold contend
  simp only [items_uncounted, remove_uncounted, append_uncounted]
  split
  · rfl
  · rfl

/-! ## Calls -/

def Meanwhile.Blind (meanwhile : Meanwhile α) : Prop :=
  ∀ face invocation queue, meanwhile face invocation queue.uncounted =
    Prod.map (Option.map (List.map Answer.uncounted)) uncounted (meanwhile face invocation queue)

theorem Meanwhile.blind_quiet : (quiet : Meanwhile α).Blind :=
  fun _ _ _ => rfl

section calls

variable {meanwhile : Meanwhile α} (h : meanwhile.Blind)

include h

theorem invoke_uncounted (face : Face) (argument : β) (journal : Journal α β) (queue : Queue α) :
    meanwhile.invoke face argument journal.uncounted queue.uncounted =
      Prod.map Journal.uncounted uncounted (meanwhile.invoke face argument journal queue) := by
  unfold Meanwhile.invoke
  rw [Journal.told_uncounted, h]
  simp only [Prod.map, Journal.note_uncounted]

theorem callback_blind (face : Face) (panicAt : Option Nat) :
    (meanwhile.callback face panicAt : Reaction α β (Journal α β)).Blind Journal.uncounted := by
  intro argument journal queue
  unfold Meanwhile.callback
  rw [invoke_uncounted h, Journal.told_uncounted]
  rfl

theorem pushWith_uncounted (face : Face) (panicAt : Option Nat) (item : α) (queue : Queue α) :
    queue.uncounted.pushWith (meanwhile.factory face panicAt item) .empty =
      forgetting Journal.uncounted
        (queue.pushWith (meanwhile.factory face panicAt item) .empty) := by
  have hmade := invoke_uncounted h face () (.empty : Journal α Unit) queue
  rw [Journal.uncounted_empty] at hmade
  unfold pushWith Meanwhile.factory
  rw [free_uncounted, hmade]
  split
  · simp only [forgetting, record_uncounted, Journal.uncounted_empty]
  · by_cases hpanic : panicAt = some (Journal.empty : Journal α Unit).told.size
    · simp only [hpanic, if_true]
      rfl
    · simp only [hpanic, if_false, Prod.map, append_uncounted]
      rfl

theorem writeBounded_uncounted (face : Face) (call : ProducerCall α) (queue : Queue α) :
    queue.uncounted.writeBounded face meanwhile call =
      Prod.map Performed.uncounted uncounted (queue.writeBounded face meanwhile call) := by
  cases call with
  | insert item =>
      simp only [writeBounded, push_uncounted]
      rfl
  | insertWith item panicAt =>
      simp only [writeBounded, pushWith_uncounted h, forgetting, Journal.nested_uncounted,
        Journal.told_uncounted]
      rfl
  | insertWithBackoff item =>
      simp only [writeBounded, pushRepeatedly_uncounted]
      rfl
  | insertUntil item readings =>
      simp only [writeBounded, pushRepeatedly_uncounted]
      rfl
  | writeBatch items =>
      simp only [writeBounded, writeBatch_uncounted]
      rfl
  | writeChunked items chunk panicAt =>
      have hwritten := writeChunked_uncounted (callback_blind h face panicAt) items chunk .empty
        queue
      rw [Journal.uncounted_empty] at hwritten
      simp only [writeBounded, hwritten, forgetting, Journal.nested_uncounted,
        Journal.told_uncounted]
      rfl
  | writeAll items =>
      simp only [writeBounded, writeAll_uncounted]
      rfl
  | observe => rfl

theorem writeUnbounded_uncounted [Item α] (limit shown : Nat) (call : ProducerCall α)
    (queue : Queue α) :
    queue.uncounted.writeUnbounded limit meanwhile shown call =
      Prod.map Performed.uncounted (Prod.map id uncounted)
        (queue.writeUnbounded limit meanwhile shown call) := by
  cases call with
  | insert item =>
      simp only [writeUnbounded, insertGrowing, grow_uncounted]
      generalize queue.grow limit 1 = answer
      rcases answer with ⟨error | growth, events, grown⟩
      · rfl
      · simp only [Prod.map, id, append_uncounted]
        rfl
  | writeBatch items =>
      simp only [writeUnbounded, writeGrowing, grow_uncounted]
      generalize queue.grow limit items.size = answer
      rcases answer with ⟨error | growth, events, grown⟩
      · rfl
      · simp only [Prod.map, id, append_uncounted]
        rfl
  | writeChunked items chunk panicAt =>
      simp only [writeUnbounded, writeChunkedGrowing, grow_uncounted]
      generalize queue.grow limit items.size = answer
      rcases answer with ⟨error | growth, events, grown⟩
      · rfl
      · have hwritten := writeChunked_uncounted
          (callback_blind h (.growable (shownAfter shown (.ok growth))) panicAt) items chunk .empty
          grown
        rw [Journal.uncounted_empty] at hwritten
        simp only [Prod.map, id, hwritten]
        generalize grown.writeChunked items chunk
          (meanwhile.callback (.growable (shownAfter shown (.ok growth))) panicAt) .empty = answer
        rcases answer with ⟨_ | _, journal, next⟩
        · simp only [forgetting, Journal.nested_uncounted, Journal.told_uncounted]
          rfl
        · simp only [forgetting, Journal.nested_uncounted, Journal.told_uncounted]
          rfl
  | observe => rfl
  | insertWith | insertWithBackoff | insertUntil | writeAll => rfl

theorem produce_uncounted [Item α] (limit : Nat) (call : ProducerCall α) (face : Face)
    (queue : Queue α) :
    queue.uncounted.produce limit meanwhile call face =
      Prod.map Performed.uncounted (Prod.map id uncounted)
        (queue.produce limit meanwhile call face) := by
  cases face with
  | bare =>
      simp only [produce, writeBounded_uncounted h]
      rfl
  | fixed =>
      simp only [produce, writeBounded_uncounted h]
      rfl
  | growable shown =>
      simp only [produce, writeUnbounded_uncounted h]
      rfl

theorem consume_uncounted [Item α] (face : Face) (call : ConsumerCall α) (queue : Queue α) :
    queue.uncounted.consume face meanwhile call =
      Prod.map Performed.uncounted uncounted (queue.consume face meanwhile call) := by
  cases call with
  | remove | removeWithBackoff | removeUntil _ =>
      simp only [consume, pop, items_uncounted, remove_uncounted]
      rfl
  | removeInto target =>
      simp only [consume, popInto_uncounted]
      rfl
  | peek | peekAt _ | peekBatch _ | observe => rfl
  | hold index =>
      simp only [consume, hold, items_uncounted]
      cases queue.items[index]? with
      | none => rfl
      | some item =>
          have hheld := invoke_uncounted h face item (.empty : Journal α α) queue
          rw [Journal.uncounted_empty] at hheld
          simp only [hheld, Prod.map, Journal.nested_uncounted]
          rfl
  | discard count =>
      simp only [consume, discard_uncounted]
      rfl
  | discardExact count =>
      simp only [consume, discardExact_uncounted]
      rfl
  | clear =>
      simp only [consume, items_uncounted, discard_uncounted]
      rfl
  | drain limit panicAt =>
      have hdrained := drain_uncounted (callback_blind h face panicAt) limit .empty queue
      rw [Journal.uncounted_empty] at hdrained
      simp only [consume, hdrained, forgetting, Journal.nested_uncounted, Journal.told_uncounted]
      rfl
  | readBatch buffer =>
      simp only [consume, readBatch, items_uncounted, remove_uncounted]
      rfl
  | readExact buffer =>
      simp only [consume, readExact, items_uncounted, remove_uncounted]
      split
      · rfl
      · rfl
  | readChunked buffer chunk panicAt =>
      have hread := readRounds_uncounted (callback_blind h face panicAt)
        (RingBuffer.chunkLength chunk buffer.size) buffer.size 0 buffer .empty queue
      rw [Journal.uncounted_empty] at hread
      simp only [consume, readChunked, hread, Prod.map, id, forgetting, Journal.nested_uncounted,
        Journal.told_uncounted]
      rfl

end calls

/-! ## Calls made inside calls -/

section scripts

variable [Item α]

theorem consumeInside_uncounted (face : Face) (call : ConsumerCall α) (queue : Queue α) :
    queue.uncounted.consumeInside face call =
      Prod.map Answer.uncounted uncounted (queue.consumeInside face call) := by
  simp only [consumeInside, consume_uncounted Meanwhile.blind_quiet]
  rfl

theorem produceInside_uncounted (limit : Nat) (face : Face) (call : ProducerCall α)
    (queue : Queue α) :
    queue.uncounted.produceInside limit face call =
      Prod.map Answer.uncounted uncounted (queue.produceInside limit face call) := by
  cases face with
  | bare =>
      simp only [produceInside, writeBounded_uncounted Meanwhile.blind_quiet]
      rfl
  | fixed =>
      simp only [produceInside, writeBounded_uncounted Meanwhile.blind_quiet]
      rfl
  | growable shown =>
      simp only [produceInside, free_uncounted, writeUnbounded_uncounted Meanwhile.blind_quiet]
      split
      · rfl
      · rfl

omit [Item α] in
theorem performAll_uncounted {perform : γ → Queue α → Answer α × Queue α}
    (hperform : ∀ call queue, perform call queue.uncounted =
      Prod.map Answer.uncounted uncounted (perform call queue))
    (calls : List γ) (queue : Queue α) :
    Meanwhile.performAll perform calls queue.uncounted =
      Prod.map (List.map Answer.uncounted) uncounted
        (Meanwhile.performAll perform calls queue) := by
  induction calls generalizing queue with
  | nil => rfl
  | cons call rest ih =>
      unfold Meanwhile.performAll
      simp only [hperform, Prod.map, ih]
      rfl

omit [Item α] in
theorem Meanwhile.blind_ofScript {perform : Face → γ → Queue α → Answer α × Queue α}
    (hperform : ∀ face call queue, perform face call queue.uncounted =
      Prod.map Answer.uncounted uncounted (perform face call queue))
    (present : Bool) (script : List (List γ)) : (ofScript present perform script).Blind := by
  intro face invocation queue
  unfold ofScript
  split
  · rfl
  · rfl
  · split
    · simp only [performAll_uncounted (hperform face)]
      rfl
    · rfl

end scripts

end Queue

end RingChannel
