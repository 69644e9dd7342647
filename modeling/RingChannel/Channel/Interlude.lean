import RingChannel.Channel.Basic

/-!
# Interludes

An interlude is what the caller does on the other side while a call runs its code: at each
invocation, counted from zero, it makes some calls and keeps their answers. A journal holds what
the code was told and the answers that it got.
-/

namespace RingChannel

/-- The answers that the caller gets at an invocation; `none` where it makes no calls. The other
side sees the ring through the face that the channel has by then. -/
abbrev Interlude (α : Type) :=
  Face → Nat → RingBuffer α → Checked (Option (List (Answer α)) × RingBuffer α)

/-- What the caller's code has been told, and the answers that it got at the invocations with
calls. -/
structure Journal (α β : Type) where
  told : Array β
  nested : Array (Nat × List (Answer α))

namespace Journal

variable {α β : Type}

def empty : Journal α β :=
  ⟨#[], #[]⟩

def note (argument : β) (answers : Option (List (Answer α))) : Journal α β → Journal α β
  | ⟨told, nested⟩ =>
      match answers with
      | none => ⟨told.push argument, nested⟩
      | some answers =>
          let invocation := told.size
          ⟨told.push argument, nested.push (invocation, answers)⟩

end Journal

namespace Interlude

variable {α β γ : Type}

def quiet : Interlude α :=
  fun _ _ ring => .ok (none, ring)

def performAll (perform : γ → RingBuffer α → Checked (Answer α × RingBuffer α)) :
    List γ → RingBuffer α → Checked (List (Answer α) × RingBuffer α)
  | [], ring => .ok ([], ring)
  | call :: rest, ring => do
      let (answer, ring) ← perform call ring
      let (answers, ring) ← performAll perform rest ring
      .ok (answer :: answers, ring)

/-- The caller makes the calls of list `k` at invocation `k`. If the other handle is gone there is
nobody to make them. -/
def ofScript (present : Bool)
    (perform : Face → γ → RingBuffer α → Checked (Answer α × RingBuffer α))
    (script : List (List γ)) : Interlude α :=
  fun face invocation ring =>
    match script[invocation]? with
    | none | some [] => .ok (none, ring)
    | some (call :: rest) =>
        if present then do
          let (answers, ring) ← performAll (perform face) (call :: rest) ring
          .ok (some answers, ring)
        else .ok (some [], ring)

def invoke (interlude : Interlude α) (face : Face) :
    β → Journal α β → RingBuffer α → Checked (Journal α β × RingBuffer α) :=
  fun argument journal ring => do
    let (answers, ring) ← interlude face journal.told.size ring
    .ok (journal.note argument answers, ring)

/-- The caller's code as a callback that keeps a journal and panics at one invocation at most, after
the calls that it makes there. -/
def callback (interlude : Interlude α) (face : Face) (panicAt : Option Nat) :
    Callback α β (Journal α β) :=
  fun argument journal ring => do
    let signal := if panicAt = some journal.told.size then .panic else .proceed
    let (journal, ring) ← interlude.invoke face argument journal ring
    .ok (signal, journal, ring)

def factory (interlude : Interlude α) (face : Face) (panicAt : Option Nat) (item : α) :
    Factory α (Journal α Unit) :=
  fun journal ring => do
    let (signal, journal, ring) ← interlude.callback face panicAt () journal ring
    match signal with
    | .proceed => .ok (some item, journal, ring)
    | .panic => .ok (none, journal, ring)

end Interlude

end RingChannel
