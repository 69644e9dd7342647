import RingChannel.Proofs.Ownership.Calls

/-!
# What calls destroy

Only the calls that discard destroy unread items: the oldest ones, up to the first whose destructor
panics. A call that stores into a target destroys the old value when there is a new one. Nothing
else destroys anything, and growth least of all.
-/

namespace RingChannel

variable {α : Type} [Item α]

namespace ConsumerCall

/-- What a call destroys of `items`: what it discards, up to the first item whose destructor
panics, or the old value of its target if there is a new one. -/
def ruins (items : List α) : ConsumerCall α → List α
  | .removeInto target => if items.isEmpty then [] else [target]
  | .discard count => (demolish (items.take count)).2
  | .discardExact count => if count ≤ items.length then (demolish (items.take count)).2 else []
  | .clear => (demolish items).2
  | _ => []

/-- What a call may destroy by its answer, whatever items there were. -/
def Destroys (call : ConsumerCall α) (answer : Answer α) : Prop :=
  match call, answer.reply with
  | .removeInto _, .removedInto (.returned false) _ => answer.destroyed = []
  | .removeInto target, .removedInto _ _ => answer.destroyed = [target]
  | .discard count, .discarded _ => answer.destroyed.length ≤ count
  | .discardExact count, .discardedExact _ => answer.destroyed.length ≤ count
  | .clear, .discarded _ => True
  | _, _ => answer.destroyed = []

end ConsumerCall

def ProducerCall.Destroys (_ : ProducerCall α) (answer : Answer α) : Prop :=
  answer.destroyed = []

namespace Queue

variable (meanwhile : Meanwhile α)

theorem consume_destroyed (face : Face) (call : ConsumerCall α) (queue : Queue α) :
    (queue.consume face meanwhile call).1.destroyed = call.ruins queue.items := by
  have hdiscard : ∀ count, (queue.discard count).2.1 = (demolish (queue.items.take count)).2 := by
    intro count
    unfold discard
    split <;> simp_all
  cases call with
  | removeInto target =>
      simp only [consume, popInto, ConsumerCall.ruins]
      cases queue.items with
      | nil => rfl
      | cons item rest => rfl
  | discard count => exact hdiscard count
  | discardExact count =>
      simp only [consume, discardExact, ConsumerCall.ruins]
      by_cases hshort : queue.items.length < count
      · rw [if_pos hshort, if_neg (by omega)]
      · rw [if_neg hshort, if_pos (by omega)]
        exact hdiscard count
  | clear =>
      refine (hdiscard _).trans ?_
      rw [List.take_length]
      rfl
  | remove | removeWithBackoff | removeUntil | peek | peekAt | hold | drain | readBatch | peekBatch
  | readExact | readChunked | observe => rfl

omit [Item α] in
theorem writeBounded_destroyed (face : Face) (call : ProducerCall α) (queue : Queue α) :
    (queue.writeBounded face meanwhile call).1.destroyed = [] := by
  cases call <;> rfl

theorem writeUnbounded_destroyed (limit shown : Nat) (call : ProducerCall α) (queue : Queue α) :
    (queue.writeUnbounded limit meanwhile shown call).1.destroyed = [] := by
  cases call <;> rfl

theorem produce_destroyed (limit : Nat) (call : ProducerCall α) (face : Face) (queue : Queue α) :
    (queue.produce limit meanwhile call face).1.destroyed = [] := by
  cases face with
  | bare | fixed => exact queue.writeBounded_destroyed meanwhile _ call
  | growable shown => exact queue.writeUnbounded_destroyed meanwhile limit shown call

theorem consumeInside_destroys (face : Face) (call : ConsumerCall α) (queue : Queue α) :
    call.Destroys (queue.consumeInside face call).1 := by
  have hruins := queue.consume_destroyed .quiet face call
  have htake : ∀ count, (demolish (queue.items.take count)).2.length ≤ count := by
    intro count
    have hlength := length_demolish_le (queue.items.take count)
    rw [List.length_take] at hlength
    omega
  cases call with
  | removeInto target =>
      unfold ConsumerCall.Destroys
      simp only [consumeInside, consume, popInto, Performed.answer]
      cases queue.items with
      | nil => rfl
      | cons item rest => by_cases hpanic : Item.explodes target <;> simp [hpanic]
  | discard count =>
      show (queue.consume face .quiet (.discard count)).1.destroyed.length ≤ count
      rw [hruins]
      exact htake count
  | discardExact count =>
      show (queue.consume face .quiet (.discardExact count)).1.destroyed.length ≤ count
      rw [hruins]
      simp only [ConsumerCall.ruins]
      split
      · exact htake count
      · exact Nat.zero_le _
  | clear => trivial
  | remove | removeWithBackoff | removeUntil | peek | peekAt | hold | drain | readBatch | peekBatch
  | readExact | readChunked | observe => exact hruins

theorem produceInside_destroys (limit : Nat) (face : Face) (call : ProducerCall α)
    (queue : Queue α) : call.Destroys (queue.produceInside limit face call).1 := by
  cases face with
  | bare | fixed => exact queue.writeBounded_destroyed .quiet _ call
  | growable shown =>
      unfold produceInside ProducerCall.Destroys
      simp only
      split
      · rfl
      · exact queue.writeUnbounded_destroyed .quiet limit shown call

end Queue

end RingChannel
