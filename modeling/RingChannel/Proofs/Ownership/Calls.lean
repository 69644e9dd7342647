import RingChannel.Proofs.Ownership.Flow
import RingChannel.Proofs.Queue.Effects

/-!
# Every call balances

Whatever the caller does meanwhile, as long as that balances itself, a call loses nothing and
duplicates nothing, also when its code or a destructor panics: what its answer shows accounts for
every item.
-/

namespace RingChannel

variable {α β γ : Type}

namespace Queue

variable {entry : Nat × List (Answer α) → Flow α} {fair : Nat × List (Answer α) → Prop}
  {meanwhile : Meanwhile α}

/-! ## One move -/

theorem balances_given (items given : List α) :
    (Flow.mk given [] []).Balances items (items ++ given) := by
  simp [Flow.Balances]

theorem balances_returned {front items : List α} (h : front <+: items) :
    (Flow.mk [] front []).Balances items (items.drop front.length) := by
  obtain ⟨rest, rfl⟩ := h
  rw [List.drop_left]
  simpa [Flow.Balances] using List.perm_append_comm

theorem balances_destroyed {front items : List α} (h : front <+: items) :
    (Flow.mk [] [] front).Balances items (items.drop front.length) := by
  obtain ⟨rest, rfl⟩ := h
  rw [List.drop_left]
  simpa [Flow.Balances] using List.perm_append_comm

theorem refuse_balances (items given : List α) : (Flow.mk given given []).Balances items items := by
  simp [Flow.Balances]

/-! ## The loops -/

/-- A chunked write has written the chunks that its callback was told of. -/
theorem writeRounds_balances (h : meanwhile.Accounts entry fair) {face : Face}
    {panicAt : Option Nat} {items : Block α} {chunk written : Nat}
    {journal later : Journal α Nat} {queue next : Queue α} {outcome : Outcome Nat}
    (hrun : queue.writeRounds items chunk (meanwhile.callback face panicAt) written journal =
      (outcome, later, next)) :
    ∃ told new, journal.Continues fair told new later ∧
      (Flow.mk ((items.toList.drop written).take (totalLength told)) [] [] ++
        .total (new.map entry)).Balances queue.items next.items := by
  fun_induction Queue.writeRounds items chunk (meanwhile.callback face panicAt) written journal
    queue with
  | case1 written journal queue count hcount =>
      cases hrun
      exact ⟨[], [], .refl _, Flow.Balances.none _⟩
  | case2 written journal queue count hcount mid queue' hcall ih =>
      obtain ⟨first, hfirst, hbalances⟩ := h.callback hcall
      obtain ⟨told, new, hrest, hbalances'⟩ := ih hrun
      refine ⟨count :: told, first ++ new, hfirst.trans hrest, ?_⟩
      rw [items_append] at hbalances
      have hround := (balances_given queue.items _).append hbalances
      have hall := (hround.append hbalances').interleave
      rw [totalLength, List.take_add, List.drop_drop, List.map_append, Flow.total_append]
      exact hall
  | case3 written journal queue count hcount mid queue' hcall =>
      cases hrun
      obtain ⟨first, hfirst, hbalances⟩ := h.callback hcall
      refine ⟨[count], first, hfirst, ?_⟩
      rw [items_append] at hbalances
      exact (balances_given queue.items _).append hbalances

/-- A chunked read has moved to its buffer the chunks that its callback was told of. -/
theorem readRounds_balances (h : meanwhile.Accounts entry fair) {face : Face}
    {panicAt : Option Nat} {chunk total done : Nat} {buffer filled : Block α}
    {journal later : Journal α Nat} {queue next : Queue α} {outcome : Outcome Nat}
    (hle : done ≤ total)
    (hrun : queue.readRounds chunk (meanwhile.callback face panicAt) total done buffer journal =
      (outcome, filled, later, next)) :
    ∃ read told new, journal.Continues fair told new later ∧ filled = buffer.cover done read ∧
      read.length = totalLength told ∧ done + totalLength told ≤ total ∧
      (Flow.mk [] read [] ++ .total (new.map entry)).Balances queue.items next.items := by
  fun_induction Queue.readRounds chunk (meanwhile.callback face panicAt) total done buffer journal
    queue with
  | case1 done buffer journal queue count hcount =>
      cases hrun
      exact ⟨[], [], [], .refl _, (Block.cover_nil _ _).symm, rfl, hle, Flow.Balances.none _⟩
  | case2 =>
      rename_i done buffer journal queue count hcount buffer' mid queue' hcall ih
      obtain ⟨first, hfirst, hbalances⟩ := h.callback hcall
      obtain ⟨read, told, new, hrest, hfilled, hlength, hend, hbalances'⟩ := ih (by omega) hrun
      have hcount' : (queue.items.take count).length = count := by
        rw [List.length_take]
        omega
      have hcover := Block.cover_cover buffer done (queue.items.take count) read
      rw [hcount'] at hcover
      refine ⟨queue.items.take count ++ read, count :: told, first ++ new, hfirst.trans hrest,
        hfilled.trans hcover, ?_, ?_, ?_⟩
      · rw [List.length_append, hcount', hlength, totalLength]
      · rw [totalLength]
        omega
      · rw [items_remove] at hbalances
        have hread := balances_returned (List.take_prefix count queue.items)
        rw [hcount'] at hread
        have hall := ((hread.append hbalances).append hbalances').interleave
        rw [List.map_append, Flow.total_append]
        exact hall
  | case3 =>
      rename_i done buffer journal queue count hcount buffer' mid queue' hcall
      obtain ⟨-, hfilled, rfl, rfl⟩ : _ ∧ buffer' = filled ∧ mid = later ∧ queue' = next := by
        simpa using hrun
      obtain ⟨first, hfirst, hbalances⟩ := h.callback hcall
      have hcount' : (queue.items.take count).length = count := by
        rw [List.length_take]
        omega
      refine ⟨queue.items.take count, [count], first, hfirst, hfilled.symm, ?_, ?_, ?_⟩
      · rw [hcount', totalLength, totalLength, Nat.add_zero]
      · rw [totalLength, totalLength]
        omega
      · rw [items_remove] at hbalances
        have hread := balances_returned (List.take_prefix count queue.items)
        rw [hcount'] at hread
        exact hread.append hbalances

/-- A drain has handed over the items that its handler was told of, and they are still at the
front. -/
theorem drainRun_balances (h : meanwhile.Accounts entry fair) {face : Face}
    {panicAt : Option Nat} {items : List α} {done gone : Nat}
    {journal later : Journal α α} {queue next : Queue α} {outcome : Outcome Unit}
    (hrun : queue.drainRun (meanwhile.callback face panicAt) items done journal =
      (outcome, gone, later, next)) :
    ∃ told new, journal.Continues fair told new later ∧ told <+: items ∧ gone = done + told.length ∧
      (Flow.total (new.map entry)).Balances queue.items next.items := by
  induction items generalizing done journal queue with
  | nil =>
      cases hrun
      exact ⟨[], [], .refl _, List.prefix_refl _, rfl, Flow.Balances.none _⟩
  | cons item rest ih =>
      unfold Queue.drainRun at hrun
      split at hrun
      · rename_i mid queue' hcall
        obtain ⟨first, hfirst, hbalances⟩ := h.callback hcall
        obtain ⟨told, new, hrest, hleads, hgone, hbalances'⟩ := ih hrun
        refine ⟨item :: told, first ++ new, hfirst.trans hrest, ?_, ?_, ?_⟩
        · exact List.cons_prefix_cons.2 ⟨rfl, hleads⟩
        · rw [hgone, List.length_cons]
          omega
        · rw [List.map_append, Flow.total_append]
          exact hbalances.append hbalances'
      · rename_i mid queue' hcall
        cases hrun
        obtain ⟨first, hfirst, hbalances⟩ := h.callback hcall
        exact ⟨[item], first, hfirst, by simp, rfl, hbalances⟩

/-! ## Taking from the front -/

theorem discard_balances [Item α] (count : Nat) (queue : Queue α) :
    (Flow.mk [] [] (queue.discard count).2.1).Balances queue.items
      (queue.discard count).2.2.items := by
  have hleads := (prefix_demolish (queue.items.take count)).trans (List.take_prefix _ _)
  have hbalances := balances_destroyed hleads
  unfold discard
  split
  · rename_i hanswer
    rw [hanswer] at hbalances
    simpa using hbalances
  · rename_i hanswer
    rw [hanswer] at hbalances
    exact hbalances

theorem pop_balances (queue : Queue α) :
    (Flow.mk [] queue.pop.1.toList []).Balances queue.items queue.pop.2.items := by
  unfold pop
  rw [items_remove]
  cases queue.items with
  | nil => exact Flow.Balances.none _
  | cons item rest => exact balances_returned (by simp)

/-! ## Whole calls -/

theorem settled_alone {flow : Flow α} {before after : List α} (h : flow.Balances before after) :
    Settled entry fair flow [] before after := by
  refine ⟨by simp, ?_⟩
  rw [List.map_nil, Flow.total_nil, Flow.append_none]
  exact h

theorem drain_settled (h : meanwhile.Accounts entry fair)
    (hfront : ∀ face invocation queue, queue.items <+: (meanwhile face invocation queue).2.items)
    {face : Face} {panicAt : Option Nat} {limit : Nat} {queue next : Queue α}
    {outcome : Outcome Nat} {later : Journal α α}
    (hrun : queue.drain limit (meanwhile.callback face panicAt) .empty = (outcome, later, next)) :
    Settled entry fair ⟨[], later.told.toList, []⟩ later.nested.toList queue.items next.items := by
  have hcallback : ∀ (item : α) (journal : Journal α α) (queue : Queue α),
      queue.items <+: (meanwhile.callback face panicAt item journal queue).2.2.items :=
    fun _ journal queue => hfront face journal.told.size queue
  have hextends := chains_leading.drainRun hcallback (queue.items.take limit) 0 .empty queue
  unfold drain at hrun
  cases hanswer : queue.drainRun (meanwhile.callback face panicAt) (queue.items.take limit) 0 .empty
    with
  | mk result rest =>
      obtain ⟨gone, journal, mid⟩ := rest
      rw [hanswer] at hextends hrun
      obtain ⟨told, new, hcontinues, hleads, hgone, hbalances⟩ := drainRun_balances h hanswer
      obtain ⟨htold, hnested, hfair⟩ := hcontinues.of_empty
      rw [Nat.zero_add] at hgone
      -- the items handed over leave the queue last, when the handler has made its calls
      have hfrontmost : told <+: mid.items :=
        (hleads.trans (List.take_prefix _ _)).trans hextends
      have hgiven := hbalances.append (balances_returned hfrontmost)
      rw [← hgone] at hgiven
      cases result with
      | returned _ =>
          cases hrun
          rw [htold, hnested, items_record]
          exact ⟨hfair, hgiven.swap⟩
      | panicked cause =>
          cases hrun
          rw [htold, hnested]
          exact ⟨hfair, hgiven.swap⟩

theorem readChunked_settled (h : meanwhile.Accounts entry fair) {face : Face}
    {panicAt : Option Nat} {buffer filled : Block α} {chunk : Nat} {queue next : Queue α}
    {outcome : Outcome Nat} {later : Journal α Nat}
    (hrun : queue.readChunked buffer chunk (meanwhile.callback face panicAt) .empty =
      (outcome, filled, later, next)) :
    Settled entry fair ⟨[], filled.toList.take (totalLength later.told.toList), []⟩
      later.nested.toList queue.items next.items := by
  obtain ⟨read, told, new, hcontinues, rfl, hlength, hend, hbalances⟩ :=
    readRounds_balances h (Nat.zero_le _) hrun
  obtain ⟨htold, hnested, hfair⟩ := hcontinues.of_empty
  rw [htold, hnested, ← hlength, Block.take_toList_cover buffer (by omega)]
  exact ⟨hfair, hbalances⟩

theorem read_balances (buffer : Block α) (queue : Queue α) :
    (Flow.mk [] ((buffer.cover 0 (queue.items.take buffer.size)).toList.take
      (min buffer.size queue.items.length)) []).Balances queue.items
        (queue.items.drop buffer.size) := by
  have hbalances := balances_returned (List.take_prefix buffer.size queue.items)
  have hfit : (queue.items.take buffer.size).length ≤ buffer.size := by
    rw [List.length_take]
    omega
  have htake := buffer.take_toList_cover hfit
  rw [List.length_take] at htake hbalances
  rw [htake, List.drop_eq_drop_min]
  exact hbalances

theorem consume_settled [Item α] (h : meanwhile.Accounts entry fair)
    (hfront : ∀ face invocation queue, queue.items <+: (meanwhile face invocation queue).2.items)
    (face : Face) (call : ConsumerCall α) (queue : Queue α) :
    Settled entry fair
      (call.flow (queue.consume face meanwhile call).1.reply
        (queue.consume face meanwhile call).1.destroyed)
      (queue.consume face meanwhile call).1.nested queue.items
      (queue.consume face meanwhile call).2.items := by
  cases call with
  | remove | removeWithBackoff | removeUntil _ => exact settled_alone queue.pop_balances
  | removeInto target =>
      refine settled_alone ?_
      simp only [consume, popInto]
      cases hitems : queue.items with
      | nil =>
          simp only [List.head?_nil, hitems]
          exact List.Perm.refl _
      | cons item rest =>
          simp only [List.head?_cons, items_remove, hitems]
          exact (List.perm_append_singleton item rest).symm.append_right [target]
  | peek | peekAt _ | observe => exact settled_alone (Flow.Balances.none _)
  | peekBatch buffer => exact settled_alone (Flow.Balances.none _)
  | hold index =>
      simp only [consume, Queue.hold]
      cases queue.items[index]? with
      | none => exact settled_alone (Flow.Balances.none _)
      | some item =>
          cases hinvoke : meanwhile.invoke face item .empty queue with
          | mk later next =>
              obtain ⟨new, hcontinues, hbalances⟩ := h.invoke hinvoke
              obtain ⟨-, hnested, hfair⟩ := hcontinues.of_empty
              simp only [hinvoke, hnested]
              exact ⟨hfair, hbalances⟩
  | discard count => exact settled_alone (queue.discard_balances count)
  | discardExact count =>
      refine settled_alone ?_
      simp only [consume, discardExact]
      split
      · exact Flow.Balances.none _
      · exact queue.discard_balances count
  | clear => exact settled_alone (queue.discard_balances _)
  | drain limit panicAt => exact drain_settled h hfront rfl
  | readBatch buffer =>
      refine settled_alone ?_
      simp only [consume, readBatch, items_remove]
      exact queue.read_balances buffer
  | readExact buffer =>
      refine settled_alone ?_
      simp only [consume, readExact]
      split
      · exact Flow.Balances.none _
      · rename_i hlong
        have hmin : min buffer.size queue.items.length = buffer.size := by omega
        have hbalances := queue.read_balances buffer
        rw [hmin, List.take_of_length_le (by simp)] at hbalances
        rw [items_remove]
        exact hbalances
  | readChunked buffer chunk panicAt => exact readChunked_settled h rfl

theorem split_given (given : List α) (count : Nat) :
    Flow.mk (given.take count) [] [] ++ Flow.mk (given.drop count) (given.drop count) [] =
      Flow.mk given (given.drop count) [] := by
  show Flow.mk (given.take count ++ given.drop count) _ _ = _
  rw [List.take_append_drop]
  rfl

theorem write_balances (items given : List α) (count : Nat) :
    (Flow.mk given (given.drop count) []).Balances items (items ++ given.take count) := by
  have hall := (balances_given items (given.take count)).append
    (refuse_balances _ (given.drop count))
  rw [split_given] at hall
  exact hall

theorem insert_balances (rejected : Option α) (item : α) (queue next : Queue α)
    (hanswer : rejected = some item ∧ next.items = queue.items ∨
      rejected = none ∧ next.items = queue.items ++ [item]) :
    (Flow.mk [item] rejected.toList []).Balances queue.items next.items := by
  rcases hanswer with ⟨rfl, hitems⟩ | ⟨rfl, hitems⟩
  · rw [hitems]
    exact refuse_balances queue.items [item]
  · rw [hitems]
    exact write_balances queue.items [item] 1

theorem writeChunked_settled (h : meanwhile.Accounts entry fair) {face : Face}
    {panicAt : Option Nat} {items : Block α} {chunk : Nat} {queue next : Queue α}
    {outcome : Outcome Nat} {later : Journal α Nat}
    (hrun : queue.writeChunked items chunk (meanwhile.callback face panicAt) .empty =
      (outcome, later, next)) :
    Settled entry fair ⟨items.toList, items.toList.drop (totalLength later.told.toList), []⟩
      later.nested.toList queue.items next.items := by
  unfold writeChunked at hrun
  cases hrounds : queue.writeRounds items (RingBuffer.chunkLength chunk items.size)
      (meanwhile.callback face panicAt) 0 .empty with
  | mk result rest =>
      obtain ⟨journal, mid⟩ := rest
      rw [hrounds] at hrun
      obtain ⟨told, new, hcontinues, hbalances⟩ := writeRounds_balances h hrounds
      obtain ⟨htold, hnested, hfair⟩ := hcontinues.of_empty
      rw [List.drop_zero] at hbalances
      have hlater : later = journal ∧ next.items = mid.items := by
        cases result with
        | returned total =>
            cases hrun
            exact ⟨rfl, items_record _ _⟩
        | panicked cause =>
            cases hrun
            exact ⟨rfl, rfl⟩
      obtain ⟨rfl, hitems⟩ := hlater
      have hrefused := refuse_balances mid.items (items.toList.drop (totalLength told))
      have hall := (hbalances.append (hrefused.append (Flow.Balances.none _))).interleave
      rw [split_given, Flow.append_none] at hall
      rw [htold, hnested, hitems]
      exact ⟨hfair, hall⟩

theorem pushWith_settled (h : meanwhile.Accounts entry fair) (face : Face) (panicAt : Option Nat)
    (item : α) (queue : Queue α) :
    Settled entry fair
      ((ProducerCall.insertWith item panicAt).flow
        (.made (queue.pushWith (meanwhile.factory face panicAt item) .empty).1
          (queue.pushWith (meanwhile.factory face panicAt item) .empty).2.1.told.size) [])
      (queue.pushWith (meanwhile.factory face panicAt item) .empty).2.1.nested.toList queue.items
      (queue.pushWith (meanwhile.factory face panicAt item) .empty).2.2.items := by
  unfold pushWith
  split
  · rw [items_record]
    exact settled_alone (Flow.Balances.none _)
  · unfold Meanwhile.factory
    cases hinvoke : meanwhile.invoke face () .empty queue with
    | mk later next =>
        obtain ⟨new, hcontinues, hbalances⟩ := h.invoke hinvoke
        obtain ⟨-, hnested, hfair⟩ := hcontinues.of_empty
        by_cases hpanic : panicAt = some (Journal.empty : Journal α Unit).told.size
        · simp only [if_pos hpanic, hnested]
          exact ⟨hfair, hbalances⟩
        · simp only [if_neg hpanic, hnested, items_append]
          have hmade := write_balances next.items [item] 1
          exact ⟨hfair, (hbalances.append hmade).swap⟩

theorem writeBounded_settled (h : meanwhile.Accounts entry fair) (face : Face)
    (call : ProducerCall α) (queue : Queue α) :
    Settled entry fair
      (call.flow (queue.writeBounded face meanwhile call).1.reply
        (queue.writeBounded face meanwhile call).1.destroyed)
      (queue.writeBounded face meanwhile call).1.nested queue.items
      (queue.writeBounded face meanwhile call).2.items := by
  cases call with
  | insert item =>
      refine settled_alone (insert_balances _ item queue _ ?_)
      simp only [writeBounded, push]
      split
      · exact .inl ⟨rfl, items_record _ _⟩
      · exact .inr ⟨rfl, items_append _ _⟩
  | insertWith item panicAt => exact pushWith_settled h face panicAt item queue
  | insertWithBackoff item =>
      refine settled_alone (insert_balances _ item queue _ ?_)
      simp only [writeBounded, pushRepeatedly]
      split
      · exact .inl ⟨rfl, items_record _ _⟩
      · exact .inr ⟨rfl, items_append _ _⟩
  | insertUntil item readings =>
      refine settled_alone (insert_balances _ item queue _ ?_)
      simp only [writeBounded, pushRepeatedly]
      split
      · exact .inl ⟨rfl, items_record _ _⟩
      · exact .inr ⟨rfl, items_append _ _⟩
  | writeBatch items =>
      refine settled_alone ?_
      simp only [writeBounded, writeBatch, items_append, items_record]
      exact write_balances _ _ _
  | writeChunked items chunk panicAt => exact writeChunked_settled h rfl
  | writeAll items =>
      refine settled_alone ?_
      simp only [writeBounded, writeAll]
      split
      · exact refuse_balances queue.items items.toList
      · have hbalances := write_balances queue.items items.toList items.size
        rw [List.take_of_length_le (by simp), List.drop_of_length_le (by simp)] at hbalances
        rw [items_append]
        exact hbalances
  | observe => exact settled_alone (Flow.Balances.none _)

theorem writeUnbounded_settled [Item α] (h : meanwhile.Accounts entry fair) (limit shown : Nat)
    (call : ProducerCall α) (queue : Queue α) :
    Settled entry fair
      (call.flow (queue.writeUnbounded limit meanwhile shown call).1.reply
        (queue.writeUnbounded limit meanwhile shown call).1.destroyed)
      (queue.writeUnbounded limit meanwhile shown call).1.nested queue.items
      (queue.writeUnbounded limit meanwhile shown call).2.2.items := by
  cases call with
  | insert item =>
      refine settled_alone ?_
      simp only [writeUnbounded, insertGrowing]
      rcases queue.grow_cases limit 1 with ⟨_, _, grown, hgrow, hitems, -⟩ | ⟨_, _, hgrow, -⟩
      · rw [hgrow]
        simp only [items_append, hitems]
        exact write_balances queue.items [item] 1
      · rw [hgrow]
        exact refuse_balances queue.items [item]
  | writeBatch items =>
      refine settled_alone ?_
      simp only [writeUnbounded, writeGrowing]
      rcases queue.grow_cases limit items.size with
        ⟨_, _, grown, hgrow, hitems, -⟩ | ⟨_, _, hgrow, -⟩
      · have hbalances := write_balances queue.items items.toList items.size
        rw [List.take_of_length_le (by simp), List.drop_of_length_le (by simp)] at hbalances
        rw [hgrow]
        simp only [items_append, hitems]
        exact hbalances
      · rw [hgrow]
        exact refuse_balances queue.items items.toList
  | writeChunked items chunk panicAt =>
      simp only [writeUnbounded, writeChunkedGrowing]
      rcases queue.grow_cases limit items.size with
        ⟨growth, _, grown, hgrow, hitems, -⟩ | ⟨_, _, hgrow, -⟩
      · rw [hgrow]
        simp only
        cases hchunks : grown.writeChunked items chunk
            (meanwhile.callback (.growable (shownAfter shown (.ok growth))) panicAt) .empty with
        | mk outcome rest =>
            obtain ⟨later, next⟩ := rest
            have hsettled := writeChunked_settled h hchunks
            rw [hitems] at hsettled
            cases outcome with
            | returned total => exact hsettled
            | panicked cause => exact hsettled
      · rw [hgrow]
        exact settled_alone (refuse_balances queue.items items.toList)
  | observe => exact settled_alone (Flow.Balances.none _)
  | insertWith | insertWithBackoff | insertUntil | writeAll =>
      exact settled_alone (refuse_balances _ _)

/-! ## Calls made inside calls -/

theorem balances_of_quiet {flow : Flow α} {nested : List (Nat × List (Answer α))}
    {before after : List α}
    (h : Settled (fun _ => .none) (fun _ => True) flow nested before after) :
    flow.Balances before after := by
  have hbalances := h.balances
  rw [Flow.total_map_none, Flow.append_none] at hbalances
  exact hbalances

variable [Item α]

theorem consumeInside_balances (face : Face) (call : ConsumerCall α) (queue : Queue α) :
    (call.flow (queue.consumeInside face call).1.reply
      (queue.consumeInside face call).1.destroyed).Balances queue.items
        (queue.consumeInside face call).2.items :=
  balances_of_quiet (consume_settled Meanwhile.accounts_quiet
    (fun _ _ queue => List.prefix_refl queue.items) face call queue)

theorem produceInside_balances (limit : Nat) (face : Face) (call : ProducerCall α)
    (queue : Queue α) :
    (call.flow (queue.produceInside limit face call).1.reply
      (queue.produceInside limit face call).1.destroyed).Balances queue.items
        (queue.produceInside limit face call).2.items := by
  have hbounded := fun face =>
    balances_of_quiet (writeBounded_settled Meanwhile.accounts_quiet face call queue)
  cases face with
  | bare => exact hbounded .bare
  | fixed => exact hbounded .fixed
  | growable shown =>
      unfold produceInside
      simp only
      split
      · exact refuse_balances _ _
      · exact balances_of_quiet
          (writeUnbounded_settled Meanwhile.accounts_quiet limit shown call queue)

end Queue

end RingChannel
