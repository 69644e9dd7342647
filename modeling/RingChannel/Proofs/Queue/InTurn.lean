import RingChannel.Proofs.Queue.Effects

/-!
# The calls made inside a drain, in turn

The handler of a drain notes the item that it is given, and its caller makes calls on the other
side. On a queue the drain itself changes nothing until it ends, so these calls find what they would
find without it: the queue as the calls at the invocations before have left it.
-/

namespace RingChannel

variable {α β : Type}

/-! ## How a drain ends -/

/-- How a drain of `count` items ends whose next item causes this invocation, and how many of them
it hands over. -/
def drainEndFrom (panicAt : Option Nat) : (invocation count : Nat) → Outcome Unit × Nat
  | _, 0 => (.returned (), 0)
  | invocation, count + 1 =>
      if panicAt = some invocation then (.panicked .callback, 1)
      else
        let others := drainEndFrom panicAt (invocation + 1) count
        (others.1, others.2 + 1)

def drainEnd (panicAt : Option Nat) (count : Nat) : Outcome Nat × Nat :=
  match panicAt with
  | some k => if k < count then (.panicked .callback, k + 1) else (.returned count, count)
  | none => (.returned count, count)

theorem drainEnd_cases (panicAt : Option Nat) (count : Nat) :
    drainEnd panicAt count = (.returned count, count) ∨
      ∃ k < count, panicAt = some k ∧ drainEnd panicAt count = (.panicked .callback, k + 1) := by
  cases panicAt with
  | none => exact .inl rfl
  | some k =>
      rw [drainEnd]
      by_cases hk : k < count
      · exact .inr ⟨k, hk, rfl, if_pos hk⟩
      · exact .inl (if_neg hk)

theorem drainEnd_le (panicAt : Option Nat) (count : Nat) : (drainEnd panicAt count).2 ≤ count := by
  rcases drainEnd_cases panicAt count with hend | ⟨k, hk, -, hend⟩
  · exact Nat.le_of_eq (congrArg Prod.snd hend)
  · rw [hend]
    exact hk

theorem drainEndFrom_none (invocation count : Nat) :
    drainEndFrom none invocation count = (.returned (), count) := by
  induction count generalizing invocation with
  | zero => rfl
  | succ count ih =>
      rw [drainEndFrom, if_neg (by simp), ih]

theorem drainEndFrom_some (k invocation count : Nat) :
    drainEndFrom (some (invocation + k)) invocation count =
      if k < count then (.panicked .callback, k + 1) else (.returned (), count) := by
  induction count generalizing k invocation with
  | zero => rfl
  | succ count ih =>
      cases k with
      | zero => rw [drainEndFrom, Nat.add_zero, if_pos rfl, if_pos (Nat.succ_pos count)]
      | succ k =>
          have hlater : ¬ some (invocation + (k + 1)) = some invocation := by
            intro hsame
            have hnumber := Option.some.inj hsame
            omega
          rw [drainEndFrom, if_neg hlater, Nat.add_comm k 1, ← Nat.add_assoc, ih]
          by_cases hk : k < count
          · rw [if_pos hk, if_pos (by omega), Nat.add_comm k 1]
          · rw [if_neg hk, if_neg (by omega)]

theorem drainEndFrom_zero (panicAt : Option Nat) (count : Nat) :
    drainEndFrom panicAt 0 count =
      ((drainEnd panicAt count).1.map fun _ => (), (drainEnd panicAt count).2) := by
  cases panicAt with
  | none => exact drainEndFrom_none 0 count
  | some k =>
      have hsome := drainEndFrom_some k 0 count
      rw [Nat.zero_add] at hsome
      rw [hsome, drainEnd]
      by_cases hk : k < count
      · simp only [hk, if_true, Outcome.map]
      · simp only [hk, if_false, Outcome.map]

/-! ## The journal of a drain -/

def Journal.after (journal : Journal α β) (told : List β)
    (nested : List (Nat × List (Answer α))) : Journal α β :=
  ⟨journal.told ++ told.toArray, journal.nested ++ nested.toArray⟩

theorem Journal.note_eq_after (journal : Journal α β) (argument : β)
    (answers : Option (List (Answer α))) :
    journal.note argument answers =
      journal.after [argument] (answers.toList.map (journal.told.size, ·)) := by
  cases answers with
  | none => simp [note, after]
  | some answers => simp [note, after]

theorem Journal.after_after (journal : Journal α β) (told told' : List β)
    (nested nested' : List (Nat × List (Answer α))) :
    (journal.after told nested).after told' nested' =
      journal.after (told ++ told') (nested ++ nested') := by
  simp [after]

@[simp] theorem Journal.after_nil (journal : Journal α β) : journal.after [] [] = journal := by
  simp [after]

@[simp] theorem Journal.told_after_empty (told : List β) (nested : List (Nat × List (Answer α))) :
    (empty.after told nested).told.toList = told := by
  simp [after]

@[simp] theorem Journal.nested_after_empty (told : List β)
    (nested : List (Nat × List (Answer α))) : (empty.after told nested).nested.toList = nested := by
  simp [after]

namespace Queue

/-- What the caller does at `count` invocations from `invocation` on, one after another, with the
answers that it gets. -/
def Meanwhile.inTurn (meanwhile : Meanwhile α) (face : Face) :
    (count invocation : Nat) → Queue α → List (Nat × List (Answer α)) × Queue α
  | 0, _, queue => ([], queue)
  | count + 1, invocation, queue =>
      let first := meanwhile face invocation queue
      let others := meanwhile.inTurn face count (invocation + 1) first.2
      (first.1.toList.map (invocation, ·) ++ others.1, others.2)

theorem Chains.inTurn {R : Queue α → Queue α → Prop} (chains : Chains R)
    {meanwhile : Meanwhile α}
    (hmeanwhile : ∀ face invocation queue, R queue (meanwhile face invocation queue).2)
    (face : Face) (count invocation : Nat) (queue : Queue α) :
    R queue (meanwhile.inTurn face count invocation queue).2 := by
  induction count generalizing invocation queue with
  | zero => exact chains.refl queue
  | succ count ih => exact chains.trans (hmeanwhile face invocation queue) (ih _ _)

theorem drainRun_inTurn (meanwhile : Meanwhile α) (face : Face) (panicAt : Option Nat)
    (items : List α) (done : Nat) (journal : Journal α α) (queue : Queue α) :
    queue.drainRun (meanwhile.callback face panicAt) items done journal =
      let ending := drainEndFrom panicAt journal.told.size items.length
      let turn := meanwhile.inTurn face ending.2 journal.told.size queue
      (ending.1, done + ending.2, journal.after (items.take ending.2) turn.1, turn.2) := by
  induction items generalizing done journal queue with
  | nil => simp [drainRun, drainEndFrom, Meanwhile.inTurn]
  | cons item rest ih =>
      have hnote := journal.note_eq_after item (meanwhile face journal.told.size queue).1
      have hsize : (journal.after [item] ((meanwhile face journal.told.size queue).1.toList.map
          (journal.told.size, ·))).told.size = journal.told.size + 1 := by
        simp [Journal.after]
      rw [List.length_cons, drainEndFrom]
      unfold drainRun
      by_cases hpanic : panicAt = some journal.told.size
      · simp only [Meanwhile.callback, Meanwhile.invoke, hnote, hpanic, if_true, Meanwhile.inTurn,
          List.append_nil, List.take_succ_cons, List.take_zero]
      · simp only [Meanwhile.callback, Meanwhile.invoke, hnote, hpanic, if_false, ih, hsize,
          Journal.after_after, Meanwhile.inTurn, List.take_succ_cons, List.singleton_append]
        congr 2
        omega

/-- The items that a drain hands over are the front of the queue that it begins with. -/
theorem drainRun_take (meanwhile : Meanwhile α) (face : Face) (panicAt : Option Nat) (limit : Nat)
    (queue : Queue α) :
    queue.drainRun (meanwhile.callback face panicAt) (queue.items.take limit) 0 .empty =
      let ending := drainEnd panicAt (min limit queue.items.length)
      let turn := meanwhile.inTurn face ending.2 0 queue
      (ending.1.map fun _ => (), ending.2, Journal.empty.after (queue.items.take ending.2) turn.1,
        turn.2) := by
  have hfirst : (queue.items.take limit).take
      (drainEnd panicAt (min limit queue.items.length)).2 =
        queue.items.take (drainEnd panicAt (min limit queue.items.length)).2 := by
    have hle := drainEnd_le panicAt (min limit queue.items.length)
    rw [List.take_take, Nat.min_eq_left (by omega)]
  rw [drainRun_inTurn, Journal.told_empty, List.size_toArray, List.length_nil, List.length_take,
    drainEndFrom_zero]
  simp only [hfirst, Nat.zero_add]

def recordDrain (outcome : Outcome Nat) (queue : Queue α) : Queue α :=
  match outcome with
  | .returned count => queue.record (.removed count)
  | .panicked _ => queue

/-- A drain is what is done inside it, and then the removal of the items that it has handed over. -/
theorem drain_inTurn (meanwhile : Meanwhile α) (face : Face) (panicAt : Option Nat) (limit : Nat)
    (queue : Queue α) :
    queue.drain limit (meanwhile.callback face panicAt) .empty =
      let ending := drainEnd panicAt (min limit queue.items.length)
      let turn := meanwhile.inTurn face ending.2 0 queue
      (ending.1, Journal.empty.after (queue.items.take ending.2) turn.1,
        (turn.2.behead ending.2).recordDrain ending.1) := by
  unfold drain
  rw [drainRun_take]
  rcases drainEnd_cases panicAt (min limit queue.items.length) with hend | ⟨k, -, -, hend⟩
  · simp only [hend, Outcome.map, recordDrain]
  · simp only [hend, Outcome.map, recordDrain]

end Queue

end RingChannel
