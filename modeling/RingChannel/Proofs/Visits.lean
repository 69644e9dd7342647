import RingChannel.Proofs.Meantime
import RingChannel.Proofs.Resemblance

/-!
# What a chunk callback is told and finds

Code of the caller that runs between two chunks may do anything that calls of the other side can
do. To speak of its invocations they are noted: what each was told, the ring that it found, the ring
that it left, and how it ended. Noting changes nothing of what the code does.
-/

namespace RingChannel

variable {α γ κ : Type}

structure Visit (α : Type) where
  count : Nat
  found : RingBuffer α
  left : RingBuffer α
  signal : Signal

namespace Visit

def total : List (Visit α) → Nat
  | [] => 0
  | visit :: rest => visit.count + total rest

def last (ring : RingBuffer α) : List (Visit α) → RingBuffer α
  | [] => ring
  | visit :: rest => last visit.left rest

/-- The items that are read in chunks before the visits: each time the oldest that are unread. -/
def oldest (ring : RingBuffer α) : List (Visit α) → List α
  | [] => []
  | visit :: rest => ring.contents.take visit.count ++ oldest visit.left rest

theorem total_concat (visits : List (Visit α)) (visit : Visit α) :
    total (visits ++ [visit]) = total visits + visit.count := by
  induction visits with
  | nil => exact (Nat.zero_add _).symm
  | cons first rest ih => rw [List.cons_append, total, total, ih, Nat.add_assoc]

@[simp] theorem last_concat (ring : RingBuffer α) (visits : List (Visit α)) (visit : Visit α) :
    last ring (visits ++ [visit]) = visit.left := by
  induction visits generalizing ring with
  | nil => rfl
  | cons first rest ih => exact ih first.left

theorem oldest_concat (ring : RingBuffer α) (visits : List (Visit α)) (visit : Visit α) :
    oldest ring (visits ++ [visit]) =
      oldest ring visits ++ (last ring visits).contents.take visit.count := by
  induction visits generalizing ring with
  | nil => exact List.append_nil _
  | cons first rest ih =>
      rw [List.cons_append, oldest, oldest, ih, List.append_assoc]
      rfl

theorem length_le_total {visits : List (Visit α)} (h : ∀ visit ∈ visits, 1 ≤ visit.count) :
    visits.length ≤ total visits := by
  induction visits with
  | nil => exact Nat.le_refl 0
  | cons first rest ih =>
      rw [List.forall_mem_cons] at h
      have hrest := ih h.2
      rw [List.length_cons, total]
      omega

/-- Each visit is as it should be after those before it. -/
def Each (P : List (Visit α) → Visit α → Prop) (visits : List (Visit α)) : Prop :=
  ∀ before visit later, visits = before ++ visit :: later → P before visit

variable {P : List (Visit α) → Visit α → Prop}

theorem Each.nil : Each P [] := by
  intro before visit later hsplit
  cases List.append_eq_nil_iff.1 hsplit.symm with
  | intro _ hcons => cases hcons

theorem Each.concat {visits : List (Visit α)} {visit : Visit α} (h : Each P visits)
    (hvisit : P visits visit) : Each P (visits ++ [visit]) := by
  intro before other later hsplit
  rcases List.eq_nil_or_concat later with rfl | ⟨others, final, rfl⟩
  · rcases List.append_inj' hsplit rfl with ⟨rfl, hother⟩
    cases hother
    exact hvisit
  · rw [List.concat_eq_append, ← List.cons_append, ← List.append_assoc] at hsplit
    exact h before other others (List.append_inj' hsplit rfl).1

theorem Each.mono {Q : List (Visit α) → Visit α → Prop} {visits : List (Visit α)}
    (h : Each P visits) (hP : ∀ before visit, P before visit → Q before visit) : Each Q visits :=
  fun before visit later hsplit => hP before visit (h before visit later hsplit)

theorem Each.forall_mem {visits : List (Visit α)} (h : Each P visits) {Q : Visit α → Prop}
    (hP : ∀ before visit, P before visit → Q visit) : ∀ visit ∈ visits, Q visit := by
  intro visit hin
  rcases List.append_of_mem hin with ⟨before, later, hsplit⟩
  exact hP before visit (h before visit later hsplit)

end Visit

namespace Callback

/-- The callback reaches the ring only through calls that are performed by `perform`. Which ones it
makes, what it makes of their answers and how it ends may depend on all that it is given. -/
def Through (perform : γ → RingBuffer α → Checked (Answer α × RingBuffer α))
    (onChunk : Callback α Nat κ) : Prop :=
  ∀ count memory ring, ∃ (calls : List γ) (signal : List (Answer α) → Signal)
    (note : List (Answer α) → κ),
    onChunk count memory ring = do
      let (answers, left) ← Interlude.performAll perform calls ring
      .ok (signal answers, note answers, left)

def noted (onChunk : Callback α Nat κ) : Callback α Nat (κ × List (Visit α)) :=
  fun count (memory, visits) ring => do
    let (signal, memory, left) ← onChunk count memory ring
    .ok (signal, (memory, visits ++ [⟨count, ring, left, signal⟩]), left)

theorem noted_of_ok {onChunk : Callback α Nat κ} {count : Nat} {memory later : κ}
    {ring left : RingBuffer α} {signal : Signal}
    (h : onChunk count memory ring = .ok (signal, later, left)) (visits : List (Visit α)) :
    onChunk.noted count (memory, visits) ring =
      .ok (signal, (later, visits ++ [⟨count, ring, left, signal⟩]), left) := by
  simp only [noted, h, ok_bind]

theorem ofScript_cases (perform : Face → γ → RingBuffer α → Checked (Answer α × RingBuffer α))
    (present : Bool) (script : List (List γ)) (face : Face) (invocation : Nat)
    (ring : RingBuffer α) :
    (∃ answers, Interlude.ofScript present perform script face invocation ring =
        .ok (answers, ring)) ∨
      ∃ calls, Interlude.ofScript present perform script face invocation ring = (do
        let (answers, left) ← Interlude.performAll (perform face) calls ring
        .ok (some answers, left)) := by
  unfold Interlude.ofScript
  cases script[invocation]? with
  | none => exact .inl ⟨none, rfl⟩
  | some calls =>
      cases calls with
      | nil => exact .inl ⟨none, rfl⟩
      | cons call rest =>
          cases present with
          | false => exact .inl ⟨some [], rfl⟩
          | true => exact .inr ⟨call :: rest, rfl⟩

/-- The code that a script stands for reaches the ring only through the calls of the script. -/
theorem through_ofScript {perform : Face → γ → RingBuffer α → Checked (Answer α × RingBuffer α)}
    (present : Bool) (script : List (List γ)) (face : Face) (panicAt : Option Nat) :
    Through (perform face)
      ((Interlude.ofScript present perform script).callback face panicAt :
        Callback α Nat (Journal α Nat)) := by
  intro count journal ring
  let signal : Signal := if panicAt = some journal.told.size then .panic else .proceed
  rcases ofScript_cases perform present script face journal.told.size ring with
    ⟨answers, hnone⟩ | ⟨calls, hcalls⟩
  · refine ⟨[], fun _ => signal, fun _ => journal.note count answers, ?_⟩
    simp only [Interlude.callback, Interlude.invoke, hnone, ok_bind, Interlude.performAll, signal]
  · refine ⟨calls, fun _ => signal, fun answers => journal.note count (some answers), ?_⟩
    simp only [Interlude.callback, Interlude.invoke, hcalls, signal]
    cases Interlude.performAll (perform face) calls ring with
    | error fault => rfl
    | ok answer => rfl

/-- On a ring at rest the callback ends, and `R` says what it makes of the queue. -/
def Leaves (kept : RingBuffer α → UInt64) (R : Queue α → Queue α → Prop)
    (onChunk : Callback α Nat κ) : Prop :=
  ∀ count memory {ring : RingBuffer α} {queue : Queue α}, ring.Holds 0 queue →
    ∃ signal later left next, onChunk count memory ring = .ok (signal, later, left) ∧
      left.Holds 0 next ∧ kept left = kept ring ∧ R queue next

variable [Item α] {onChunk : Callback α Nat κ}

theorem Through.consumes {face : Face} (h : onChunk.Through (Channel.consumeInside face)) :
    onChunk.Leaves RingBuffer.head Queue.Consumed := by
  intro count memory ring queue hring
  rcases h count memory ring with ⟨calls, signal, note, hrun⟩
  rcases hring.consumeCalls face calls with ⟨answers, left, next, hcalls, hleft, hhead, hnext⟩
  refine ⟨signal answers, note answers, left, next, ?_, hleft, hhead, hnext⟩
  rw [hrun, hcalls]
  rfl

theorem Through.produces {limit : Nat} {face : Face}
    (h : onChunk.Through (Channel.produceInside limit face)) :
    onChunk.Leaves RingBuffer.tail Queue.Produced := by
  intro count memory ring queue hring
  rcases h count memory ring with ⟨calls, signal, note, hrun⟩
  rcases hring.produceCalls limit face calls with
    ⟨answers, left, next, hcalls, hleft, htail, hnext⟩
  refine ⟨signal answers, note answers, left, next, ?_, hleft, htail, hnext⟩
  rw [hrun, hcalls]
  rfl

end Callback

end RingChannel
