import RingChannel.Text.Layout

/-!
# Errors

Being full or empty is no error. A ring cannot be built on a bad capacity or without memory, and a
growable ring cannot always grow; an insert that fails for that reason hands its item back.
-/

namespace RingChannel

open Text

inductive RingError where
  | invalidCapacity (capacity : Nat)
  | allocationFailed (capacity : Nat)
  | growthFailed (current requested : Nat)
  deriving DecidableEq, Repr

namespace RingError

def name : RingError → String
  | .invalidCapacity _ => "InvalidCapacity"
  | .allocationFailed _ => "AllocationFailed"
  | .growthFailed _ _ => "GrowthFailed"

def message : RingError → String
  | .invalidCapacity capacity =>
      "invalid ring capacity " ++ capacity.repr ++ ": must be a non-zero power of two"
  | .allocationFailed capacity => "ring allocation failed (" ++ capacity.repr ++ " slots)"
  | .growthFailed current requested =>
      "ring growth failed (" ++ current.repr ++ " -> " ++ requested.repr ++ " slots)"

def layout (error : RingError) : Layout :=
  .record error.name
    (match error with
      | .invalidCapacity capacity => [("capacity", .number capacity)]
      | .allocationFailed capacity => [("capacity", .number capacity)]
      | .growthFailed current requested =>
          [("current", .number current), ("requested", .number requested)]) true

/-- Only a failed growth leaves a ring behind that can go on. -/
def isRecoverable : RingError → Bool
  | .growthFailed _ _ => true
  | _ => false

end RingError

structure InsertError (α : Type) where
  item : α
  cause : RingError
  deriving DecidableEq, Repr

namespace InsertError

def message {α : Type} (error : InsertError α) : String :=
  "insert rejected: " ++ error.cause.message

/-- The text of a failed insert as a record that does not show the item. -/
def layout {α : Type} (error : InsertError α) : Layout :=
  .record "InsertError" [("cause", error.cause.layout)] false

end InsertError

end RingChannel
