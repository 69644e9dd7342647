/-!
# Items

A ring holds items of one type. It needs to know how many bytes a slot takes, because the memory for
a store is limited, and which items panic when they are destroyed.
-/

namespace RingChannel

class Item (α : Type) where
  slotBytes : Nat
  explodes : α → Bool

instance : Item UInt64 := ⟨8, fun _ => false⟩

instance : Item UInt8 := ⟨1, fun _ => false⟩

instance : Item Unit := ⟨0, fun _ => false⟩

instance : Item String := ⟨24, fun _ => false⟩

/-- An item whose destruction is observed: it has an identity, and it may go off. -/
structure Tracked where
  id : Nat
  bomb : Bool
  deriving DecidableEq, Repr

instance : Item Tracked := ⟨16, Tracked.bomb⟩

end RingChannel
