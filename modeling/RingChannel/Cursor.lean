import RingChannel.Config
import RingChannel.Fault

/-!
# Cursors

A cursor is a word that one side moves and the other side looks at. Every access names its fence. A
load has nothing to release and a store has nothing to acquire, so such an access is refused.
-/

namespace RingChannel.Cursor

def load (fence : Fence) (cursor : UInt64) : Checked UInt64 := do
  ensure (fence ≠ .release) (.misfenced fence)
  .ok cursor

/-- The cursor as the other side will load it. -/
def store (fence : Fence) (cursor : UInt64) : Checked UInt64 := do
  ensure (fence ≠ .acquire) (.misfenced fence)
  .ok cursor

@[simp] theorem load_relaxed (cursor : UInt64) : load .relaxed cursor = .ok cursor := rfl

@[simp] theorem store_relaxed (cursor : UInt64) : store .relaxed cursor = .ok cursor := rfl

/-! Both orderings name fences that the accesses take. -/

@[simp] theorem load_acquire (ordering : MemoryOrdering) (cursor : UInt64) :
    load ordering.acquire cursor = .ok cursor := by
  cases ordering <;> rfl

@[simp] theorem store_release (ordering : MemoryOrdering) (cursor : UInt64) :
    store ordering.release cursor = .ok cursor := by
  cases ordering <;> rfl

end RingChannel.Cursor
