import RingChannel.Proofs.Queue.Calls

/-!
# What passes between a channel and its caller

Each call takes items over from its caller, hands items back, and destroys some. These flows are
read off the call and its answer alone. A flow balances when what was unread before and what was
given is, one by one, what is unread afterwards, what came back and what was destroyed.
-/

namespace RingChannel

variable {α β γ : Type}

/-- The items given to a channel, handed back to its caller, and destroyed, in some call or run. -/
structure Flow (α : Type) where
  given : List α
  returned : List α
  destroyed : List α

namespace Flow

instance : Append (Flow α) :=
  ⟨fun first second => ⟨first.given ++ second.given, first.returned ++ second.returned,
    first.destroyed ++ second.destroyed⟩⟩

def none : Flow α :=
  ⟨[], [], []⟩

def total (flows : List (Flow α)) : Flow α :=
  ⟨flows.flatMap given, flows.flatMap returned, flows.flatMap destroyed⟩

def Balances (flow : Flow α) (before after : List α) : Prop :=
  (before ++ flow.given).Perm (after ++ flow.returned ++ flow.destroyed)

@[simp] theorem given_append (first second : Flow α) :
    (first ++ second).given = first.given ++ second.given := rfl

@[simp] theorem returned_append (first second : Flow α) :
    (first ++ second).returned = first.returned ++ second.returned := rfl

@[simp] theorem destroyed_append (first second : Flow α) :
    (first ++ second).destroyed = first.destroyed ++ second.destroyed := rfl

@[simp] theorem append_none (flow : Flow α) : flow ++ none = flow := by
  obtain ⟨given, returned, destroyed⟩ := flow
  show Flow.mk (given ++ []) (returned ++ []) (destroyed ++ []) = _
  rw [List.append_nil, List.append_nil, List.append_nil]

@[simp] theorem total_nil : total ([] : List (Flow α)) = none := rfl

theorem total_cons (flow : Flow α) (flows : List (Flow α)) :
    total (flow :: flows) = flow ++ total flows := rfl

theorem total_append (first second : List (Flow α)) :
    total (first ++ second) = total first ++ total second := by
  show Flow.mk _ _ _ = Flow.mk _ _ _
  rw [List.flatMap_append, List.flatMap_append, List.flatMap_append]
  rfl

@[simp] theorem total_map_none (entries : List β) :
    total (entries.map fun _ => (none : Flow α)) = none := by
  induction entries with
  | nil => rfl
  | cons entry rest ih =>
      rw [List.map_cons, total_cons, ih]
      rfl

theorem balances_iff [DecidableEq α] {flow : Flow α} {before after : List α} :
    flow.Balances before after ↔
      ∀ item, before.count item + flow.given.count item =
        after.count item + flow.returned.count item + flow.destroyed.count item := by
  unfold Balances
  rw [List.perm_iff_count]
  simp only [List.count_append]

theorem Balances.none (items : List α) : Balances none items items := by
  simp [Balances, Flow.none]

theorem Balances.append {first second : Flow α} {before mid after : List α}
    (hfirst : first.Balances before mid) (hsecond : second.Balances mid after) :
    (first ++ second).Balances before after := by
  classical
  rw [balances_iff] at hfirst hsecond ⊢
  intro item
  have h := hfirst item
  have h' := hsecond item
  simp only [given_append, returned_append, destroyed_append, List.count_append]
  omega

theorem Balances.swap {first second : Flow α} {before after : List α}
    (h : (first ++ second).Balances before after) : (second ++ first).Balances before after := by
  classical
  rw [balances_iff] at h ⊢
  intro item
  have h := h item
  simp only [given_append, returned_append, destroyed_append, List.count_append] at h ⊢
  omega

/-- What belongs together in a sequence of flows may be put together. -/
theorem Balances.interleave {first second third fourth : Flow α} {before after : List α}
    (h : (first ++ second ++ (third ++ fourth)).Balances before after) :
    (first ++ third ++ (second ++ fourth)).Balances before after := by
  classical
  rw [balances_iff] at h ⊢
  intro item
  have h := h item
  simp only [given_append, returned_append, destroyed_append, List.count_append] at h ⊢
  omega

theorem Balances.trans_perm {flow : Flow α} {before after after' : List α}
    (h : flow.Balances before after) (hperm : after.Perm after') :
    flow.Balances before after' :=
  h.trans ((hperm.append_right _).append_right _)

/-- Items that are left behind stay where they are. -/
theorem Balances.frame {flow : Flow α} {before after : List α} (h : flow.Balances before after)
    (behind : List α) : flow.Balances (before ++ behind) (after ++ behind) := by
  classical
  rw [balances_iff] at h ⊢
  intro item
  have h := h item
  simp only [List.count_append]
  omega

end Flow

def totalLength : List Nat → Nat
  | [] => 0
  | count :: rest => count + totalLength rest

namespace ProducerCall

def given (call : ProducerCall α) (reply : Reply α) : List α :=
  match call, reply with
  | .insertWith item _, .made (.returned true) _ => [item]
  | .insertWith _ _, _ => []
  | call, _ => call.items

/-- The items that the caller has after a call: rejected, inside an error, or not written. -/
def returned (call : ProducerCall α) : Reply α → List α
  | .inserted rejected => rejected.toList
  | .insertedGrowing (.error error) => [error.item]
  | .wrote count => call.items.drop count
  | .wroteGrowing (.error _) => call.items
  | .wroteChunks _ chunks | .wroteChunksGrowing _ chunks => call.items.drop (totalLength chunks)
  | .wroteAll done => if done then [] else call.items
  | .blocked => call.given .blocked
  | .unsupported => call.given .unsupported
  | _ => []

def flow (call : ProducerCall α) (reply : Reply α) (destroyed : List α) : Flow α :=
  ⟨call.given reply, call.returned reply, destroyed⟩

end ProducerCall

namespace ConsumerCall

def given : ConsumerCall α → List α
  | .removeInto target => [target]
  | _ => []

def returned (call : ConsumerCall α) (reply : Reply α) : List α :=
  match call, reply with
  | .peekBatch _, _ => []
  | _, .removed item => item.toList
  | _, .removedInto _ target => [target]
  | _, .drained _ items => items
  | _, .readBatch count buffer => buffer.toList.take count
  | _, .readExact done buffer => if done then buffer.toList else []
  | _, .readChunks _ chunks buffer => buffer.toList.take (totalLength chunks)
  | _, _ => []

def flow (call : ConsumerCall α) (reply : Reply α) (destroyed : List α) : Flow α :=
  ⟨call.given, call.returned reply, destroyed⟩

end ConsumerCall

/-! ## Calls made inside calls -/

/-- The calls of list `k` of a script, made at invocation `k`, with their answers. -/
def entryCalls (script : List (List γ)) (entry : Nat × List (Answer α)) : List (γ × Answer α) :=
  (script[entry.1]?.getD []).zip entry.2

def entryFlow (flow : γ → Reply α → List α → Flow α) (script : List (List γ))
    (entry : Nat × List (Answer α)) : Flow α :=
  .total ((entryCalls script entry).map fun made => flow made.1 made.2.reply made.2.destroyed)

/-- A later state of a journal, with more told and more answers, all of them fair. -/
def Journal.Continues (fair : Nat × List (Answer α) → Prop) (journal : Journal α β)
    (told : List β) (new : List (Nat × List (Answer α))) (later : Journal α β) : Prop :=
  later.told.toList = journal.told.toList ++ told ∧
    later.nested.toList = journal.nested.toList ++ new ∧ ∀ entry ∈ new, fair entry

section

variable {fair : Nat × List (Answer α) → Prop}

theorem Journal.Continues.refl (journal : Journal α β) : journal.Continues fair [] [] journal := by
  simp [Continues]

theorem Journal.Continues.of_empty {told : List β} {new : List (Nat × List (Answer α))}
    {later : Journal α β} (h : Journal.empty.Continues fair told new later) :
    later.told.toList = told ∧ later.nested.toList = new ∧ ∀ entry ∈ new, fair entry := by
  simpa [Continues] using h

theorem Journal.Continues.trans {journal mid later : Journal α β} {told told' : List β}
    {new new' : List (Nat × List (Answer α))} (h : journal.Continues fair told new mid)
    (h' : mid.Continues fair told' new' later) :
    journal.Continues fair (told ++ told') (new ++ new') later := by
  obtain ⟨htold, hnew, hfair⟩ := h
  obtain ⟨htold', hnew', hfair'⟩ := h'
  refine ⟨?_, ?_, ?_⟩
  · rw [htold', htold, List.append_assoc]
  · rw [hnew', hnew, List.append_assoc]
  · intro entry hentry
    rcases List.mem_append.1 hentry with hentry | hentry
    · exact hfair entry hentry
    · exact hfair' entry hentry

end

/-- A call is accounted for by its own flow and by the calls made inside it, all of them fair. -/
structure Settled (entry : Nat × List (Answer α) → Flow α) (fair : Nat × List (Answer α) → Prop)
    (flow : Flow α) (nested : List (Nat × List (Answer α))) (before after : List α) : Prop where
  fair : ∀ made ∈ nested, fair made
  balances : (flow ++ .total (nested.map entry)).Balances before after

namespace Queue.Meanwhile

def Accounts (entry : Nat × List (Answer α) → Flow α) (fair : Nat × List (Answer α) → Prop)
    (meanwhile : Meanwhile α) : Prop :=
  ∀ face invocation queue,
    match (meanwhile face invocation queue).1 with
    | none => (meanwhile face invocation queue).2.items = queue.items
    | some answers =>
        fair (invocation, answers) ∧
          (entry (invocation, answers)).Balances queue.items
            (meanwhile face invocation queue).2.items

variable {entry : Nat × List (Answer α) → Flow α} {fair : Nat × List (Answer α) → Prop}
  {meanwhile : Meanwhile α}

theorem accounts_quiet : quiet.Accounts entry fair := fun _ _ _ => rfl

theorem Accounts.invoke (h : meanwhile.Accounts entry fair) {face : Face} {argument : β}
    {journal later : Journal α β} {queue next : Queue α}
    (hrun : meanwhile.invoke face argument journal queue = (later, next)) :
    ∃ new, journal.Continues fair [argument] new later ∧
      (Flow.total (new.map entry)).Balances queue.items next.items := by
  have hcall := h face journal.told.size queue
  unfold Meanwhile.invoke at hrun
  cases hrun
  cases hanswers : (meanwhile face journal.told.size queue).1 with
  | none =>
      rw [hanswers] at hcall
      refine ⟨[], ⟨by simp [Journal.note], by simp [Journal.note], by simp⟩, ?_⟩
      rw [List.map_nil, Flow.total_nil, hcall]
      exact Flow.Balances.none _
  | some answers =>
      rw [hanswers] at hcall
      refine ⟨[(journal.told.size, answers)],
        ⟨by simp [Journal.note], by simp [Journal.note], by simpa using hcall.1⟩, ?_⟩
      rw [List.map_singleton, Flow.total_cons, Flow.total_nil, Flow.append_none]
      exact hcall.2

theorem Accounts.callback (h : meanwhile.Accounts entry fair) {face : Face}
    {panicAt : Option Nat} {argument : β} {journal later : Journal α β} {queue next : Queue α}
    {signal : Signal}
    (hrun : meanwhile.callback face panicAt argument journal queue = (signal, later, next)) :
    ∃ new, journal.Continues fair [argument] new later ∧
      (Flow.total (new.map entry)).Balances queue.items next.items := by
  unfold Meanwhile.callback at hrun
  obtain ⟨-, hpair⟩ := Prod.mk.inj hrun
  exact h.invoke hpair

theorem accounts_ofScript {flow : γ → Reply α → List α → Flow α} {fair : γ → Answer α → Prop}
    {perform : Face → γ → Queue α → Answer α × Queue α}
    (h : ∀ face call queue, (flow call (perform face call queue).1.reply
      (perform face call queue).1.destroyed).Balances queue.items (perform face call queue).2.items)
    (hfair : ∀ face call queue, fair call (perform face call queue).1)
    (present : Bool) (script : List (List γ)) :
    (ofScript present perform script).Accounts (entryFlow flow script)
      fun entry => ∀ made ∈ entryCalls script entry, fair made.1 made.2 := by
  have hall : ∀ face calls queue,
      (∀ made ∈ calls.zip (performAll (perform face) calls queue).1, fair made.1 made.2) ∧
      (Flow.total ((calls.zip (performAll (perform face) calls queue).1).map fun made =>
        flow made.1 made.2.reply made.2.destroyed)).Balances queue.items
          (performAll (perform face) calls queue).2.items := by
    intro face calls
    induction calls with
    | nil => exact fun queue => ⟨by simp, Flow.Balances.none _⟩
    | cons call rest ih =>
        intro queue
        obtain ⟨hrest, hbalances⟩ := ih (perform face call queue).2
        refine ⟨?_, (h face call queue).append hbalances⟩
        intro made hmade
        rcases List.mem_cons.1 hmade with rfl | hmade
        · exact hfair face call queue
        · exact hrest made hmade
  intro face invocation queue
  simp only [ofScript, entryFlow, entryCalls]
  cases script[invocation]? with
  | none => rfl
  | some calls =>
      cases calls with
      | nil => rfl
      | cons call rest =>
          cases present with
          | false => exact ⟨by simp, Flow.Balances.none _⟩
          | true => exact hall face (call :: rest) queue

end Queue.Meanwhile

end RingChannel
