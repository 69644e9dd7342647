import RingChannel.RingBuffer.Basic

/-!
# A larger store

Regrowing moves the unread items into a fresh store, the oldest into slot zero, and restarts both
cursors. It needs the ring for itself, and no fences then. If there is no memory for the new store, nothing changes.
-/

namespace RingChannel.RingBuffer

variable {α : Type}

def regrow [Item α] (limit capacity : Nat) (ring : RingBuffer α) :
    Checked (Except RingError Unit × RingBuffer α) := do
  ensure (Capacity.isValid capacity ∧ ring.capacity < capacity) (.badRegrow ring.capacity capacity)
  if !Store.fits α limit capacity then
    .ok (.error (.growthFailed ring.capacity capacity), ring)
  else
    let mask := UInt64.ofNat (capacity - 1)
    let tail ← Cursor.load .relaxed ring.tail
    let head ← Cursor.load .relaxed ring.head
    let live := (head - tail).toNat
    let (items, _) ← ring.takeRun tail live
    let store ← (Store.empty capacity).fill mask 0 items
    let tail ← Cursor.store .relaxed 0
    let head ← Cursor.store .relaxed (UInt64.ofNat live)
    let grown : RingBuffer α :=
      { ring with
        head := head
        tail := tail
        mask := mask
        store := store }
    .ok (.ok (), grown.record .growth)

end RingChannel.RingBuffer
