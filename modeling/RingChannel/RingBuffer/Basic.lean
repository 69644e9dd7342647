import RingChannel.Capacity
import RingChannel.Config
import RingChannel.Counters
import RingChannel.Cursor
import RingChannel.Error
import RingChannel.Item
import RingChannel.Store

/-!
# Ring buffers

A ring is a store and two cursors. The head is the producer's: the next slot to write. The tail is
the consumer's: the next slot to read. Both run freely through all 64-bit words and wrap; only
their distance and their low bits matter. The slots from tail to head hold the unread items,
oldest first.

A side samples its window, works on the slots of it, and publishes how far it came.
-/

namespace RingChannel

/-- A store between a writing and a reading cursor. -/
structure RingBuffer (α : Type) where
  head : UInt64
  tail : UInt64
  mask : UInt64
  store : Store α
  config : Config
  counters : Counters

/-- A run of slots that one side may work on: the cursor of the first one and their number. -/
structure Window where
  start : UInt64
  count : Nat
  deriving DecidableEq, Repr

def Store.fits (α : Type) [Item α] (limit capacity : Nat) : Bool :=
  capacity * Item.slotBytes α ≤ limit

namespace RingBuffer

variable {α : Type}

/-- An empty ring whose cursors both start at `start`. A bad capacity is reported before the
memory is asked for. -/
def create [Item α] (limit capacity : Nat) (config : Config) (start : UInt64) :
    Except RingError (RingBuffer α) :=
  if !Capacity.isValid capacity then .error (.invalidCapacity capacity)
  else if !Store.fits α limit capacity then .error (.allocationFailed capacity)
  else .ok
    { head := start
      tail := start
      mask := UInt64.ofNat (capacity - 1)
      store := .empty capacity
      config := config
      counters := .zero }

/-! ## Observers -/

def capacity (ring : RingBuffer α) : Nat :=
  ring.mask.toNat + 1

/-- The distance from tail to head. -/
def live (ring : RingBuffer α) : Nat :=
  (ring.head - ring.tail).toNat

/-- The number of unread items as a third party sees it, which may look while the cursors move. It
acquires both of them, whatever the ordering. -/
def length (ring : RingBuffer α) : Nat :=
  min ring.live ring.capacity

def free (ring : RingBuffer α) : Checked Nat := do
  let head ← Cursor.load .relaxed ring.head
  let tail ← Cursor.load ring.config.ordering.acquire ring.tail
  subtract ring.capacity (head - tail).toNat

def readable (ring : RingBuffer α) : Checked Nat := do
  let tail ← Cursor.load .relaxed ring.tail
  let head ← Cursor.load ring.config.ordering.acquire ring.head
  .ok (head - tail).toNat

theorem free_eq_subtract (ring : RingBuffer α) :
    ring.free = subtract ring.capacity ring.live := by
  simp only [free, Cursor.load_relaxed, Cursor.load_acquire, ok_bind, live]

@[simp] theorem readable_eq (ring : RingBuffer α) : ring.readable = .ok ring.live := by
  simp only [readable, Cursor.load_relaxed, Cursor.load_acquire, ok_bind, live]

/-- What the ring has counted; nothing if it does not count. -/
def metrics (ring : RingBuffer α) : Counters :=
  if ring.config.metered then ring.counters else .zero

def slot (ring : RingBuffer α) (cursor : UInt64) : Nat :=
  Store.slot ring.mask cursor

/-- The unread items, oldest first. -/
def contents (ring : RingBuffer α) : List α :=
  (List.range ring.live).filterMap fun offset =>
    ring.store.get? (ring.slot (ring.tail + UInt64.ofNat offset))

/-- A new ring has a valid capacity that fits into the memory. -/
theorem create_eq_ok_iff [Item α] {limit capacity : Nat} {config : Config} {start : UInt64} :
    (∃ ring : RingBuffer α, create limit capacity config start = .ok ring) ↔
      Capacity.isValid capacity = true ∧ Store.fits α limit capacity = true := by
  unfold create
  cases Capacity.isValid capacity <;> cases Store.fits α limit capacity <;> simp

theorem contents_of_create [Item α] {limit capacity : Nat} {config : Config} {start : UInt64}
    {ring : RingBuffer α} (h : create limit capacity config start = .ok ring) :
    ring.contents = [] := by
  unfold create at h
  split at h
  · cases h
  · split at h
    · cases h
    · cases h
      simp only [contents, live, UInt64.sub_self, UInt64.toNat_zero, List.range_zero,
        List.filterMap_nil]

/-! ## Windows and publication -/

def record (tally : Tally) (ring : RingBuffer α) : RingBuffer α :=
  if ring.config.metered then { ring with counters := ring.counters.add tally } else ring

section record

variable (tally : Tally) (ring : RingBuffer α)

/-! Counting touches the counters only. -/

theorem record_eq :
    ring.record tally = { ring with
      counters := if ring.config.metered then ring.counters.add tally else ring.counters } := by
  unfold record; split <;> rfl

@[simp] theorem head_record : (ring.record tally).head = ring.head := by
  rw [record_eq]

@[simp] theorem tail_record : (ring.record tally).tail = ring.tail := by
  rw [record_eq]

@[simp] theorem mask_record : (ring.record tally).mask = ring.mask := by
  rw [record_eq]

@[simp] theorem store_record : (ring.record tally).store = ring.store := by
  rw [record_eq]

@[simp] theorem config_record : (ring.record tally).config = ring.config := by
  rw [record_eq]

@[simp] theorem live_record : (ring.record tally).live = ring.live := by
  simp [live]

@[simp] theorem capacity_record : (ring.record tally).capacity = ring.capacity := by
  simp [capacity]

@[simp] theorem contents_record : (ring.record tally).contents = ring.contents := by
  simp [contents, slot]

theorem counters_record :
    (ring.record tally).counters =
      if ring.config.metered then ring.counters.add tally else ring.counters := by
  rw [record_eq]

end record

def producerWindow (ring : RingBuffer α) : Checked Window := do
  let free ← ring.free
  .ok ⟨ring.head, free⟩

def consumerWindow (ring : RingBuffer α) : Checked Window := do
  let count ← ring.readable
  .ok ⟨ring.tail, count⟩

@[simp] theorem consumerWindow_eq (ring : RingBuffer α) :
    ring.consumerWindow = .ok ⟨ring.tail, ring.live⟩ := by
  rw [consumerWindow, readable_eq, ok_bind]

/-- Hand `count` freshly written slots from `start` on to the consumer. The producer never laps the
consumer. -/
def publishHead (start : UInt64) (count : Nat) (ring : RingBuffer α) : Checked (RingBuffer α) := do
  let head := start + UInt64.ofNat count
  let tail ← Cursor.load .relaxed ring.tail
  let live := (head - tail).toNat
  ensure (live ≤ ring.capacity) (.overfull live ring.capacity)
  let head ← Cursor.store ring.config.ordering.release head
  .ok (record (.inserted count) { ring with head := head })

/-- Hand `count` consumed slots from `start` on back to the producer. The consumer never passes the
producer. -/
def publishTail (start : UInt64) (count : Nat) (ring : RingBuffer α) : Checked (RingBuffer α) := do
  let head ← Cursor.load .relaxed ring.head
  let window := (head - start).toNat
  ensure (count ≤ window) (.overtaken count window)
  let tail ← Cursor.store ring.config.ordering.release (start + UInt64.ofNat count)
  .ok { ring with tail := tail }

def fill (start : UInt64) (items : List α) (ring : RingBuffer α) : Checked (RingBuffer α) := do
  let store ← ring.store.fill ring.mask start items
  .ok { ring with store := store }

def takeRun (start : UInt64) (count : Nat) (ring : RingBuffer α) :
    Checked (List α × RingBuffer α) := do
  let (items, store) ← ring.store.takeRun ring.mask start count
  .ok (items, { ring with store := store })

end RingBuffer

end RingChannel
