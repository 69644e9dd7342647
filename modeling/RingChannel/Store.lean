import Std.Data.ExtTreeMap
import RingChannel.Fault

/-!
# Stores

A store is a row of slots, each vacant or holding one item. Writing needs a vacant slot and moving
out an occupied one, so an item is never duplicated or written over. Only occupied slots are kept:
a large empty store costs nothing.
-/

namespace RingChannel

/-- `size` slots, of which the occupied ones hold the items of `cells`. -/
structure Store (α : Type) where
  size : Nat
  cells : Std.ExtTreeMap Nat α compare

namespace Store

variable {α : Type}

def empty (size : Nat) : Store α :=
  ⟨size, ∅⟩

def get? (store : Store α) (index : Nat) : Option α :=
  store.cells[index]?

/-- Move an item into a vacant slot. -/
def put (store : Store α) (index : Nat) (item : α) : Checked (Store α) :=
  if index < store.size then
    match store.get? index with
    | none => .ok { store with cells := store.cells.insert index item }
    | some _ => .error (.occupied index)
  else .error (.outOfRange index store.size)

def read (store : Store α) (index : Nat) : Checked α :=
  if index < store.size then
    match store.get? index with
    | some item => .ok item
    | none => .error (.vacant index)
  else .error (.outOfRange index store.size)

/-- Move the item out of an occupied slot, which is vacant afterwards. -/
def take (store : Store α) (index : Nat) : Checked (α × Store α) :=
  if index < store.size then
    match store.get? index with
    | some item => .ok (item, { store with cells := store.cells.erase index })
    | none => .error (.vacant index)
  else .error (.outOfRange index store.size)

@[ext] theorem ext {a b : Store α} (hsize : a.size = b.size) (hget : ∀ i, a.get? i = b.get? i) :
    a = b := by
  obtain ⟨asize, acells⟩ := a
  obtain ⟨bsize, bcells⟩ := b
  cases hsize
  congr
  exact Std.ExtTreeMap.ext_getElem? hget

@[simp] theorem size_empty (size : Nat) : (empty size : Store α).size = size := rfl

@[simp] theorem get?_empty (size index : Nat) : (empty size : Store α).get? index = none := by
  simp [get?, empty]

theorem put_of_vacant {store : Store α} {index : Nat} (item : α) (hi : index < store.size)
    (hv : store.get? index = none) :
    ∃ written, store.put index item = .ok written ∧ written.size = store.size ∧
      ∀ j, written.get? j = if j = index then some item else store.get? j := by
  refine ⟨⟨store.size, store.cells.insert index item⟩, by simp [put, hi, hv], rfl, fun j => ?_⟩
  simp only [get?, Std.ExtTreeMap.getElem?_insert, Nat.compare_eq_eq, @eq_comm _ index j]

theorem read_of_occupied {store : Store α} {index : Nat} {item : α} (hi : index < store.size)
    (ho : store.get? index = some item) : store.read index = .ok item := by
  simp [read, hi, ho]

theorem take_of_occupied {store : Store α} {index : Nat} {item : α} (hi : index < store.size)
    (ho : store.get? index = some item) :
    ∃ rest, store.take index = .ok (item, rest) ∧ rest.size = store.size ∧
      ∀ j, rest.get? j = if j = index then none else store.get? j := by
  refine ⟨⟨store.size, store.cells.erase index⟩, by simp [take, hi, ho], rfl, fun j => ?_⟩
  simp only [get?, Std.ExtTreeMap.getElem?_erase, Nat.compare_eq_eq, @eq_comm _ index j]

/-! ## Runs of slots

The slots of a window are those of consecutive cursors under a mask. -/

def slot (mask cursor : UInt64) : Nat :=
  (cursor &&& mask).toNat

def fill (store : Store α) (mask cursor : UInt64) : List α → Checked (Store α)
  | [] => .ok store
  | item :: rest => do
      let store ← store.put (slot mask cursor) item
      store.fill mask (cursor + 1) rest

def takeRun (store : Store α) (mask cursor : UInt64) : Nat → Checked (List α × Store α)
  | 0 => .ok ([], store)
  | count + 1 => do
      let (item, store) ← store.take (slot mask cursor)
      let (rest, store) ← store.takeRun mask (cursor + 1) count
      .ok (item :: rest, store)

def readRun (store : Store α) (mask cursor : UInt64) : Nat → Checked (List α)
  | 0 => .ok []
  | count + 1 => do
      let item ← store.read (slot mask cursor)
      let rest ← store.readRun mask (cursor + 1) count
      .ok (item :: rest)

end Store

end RingChannel
