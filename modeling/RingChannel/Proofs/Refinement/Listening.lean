import RingChannel.Proofs.Queue.Calm
import RingChannel.Proofs.Refinement.Release

/-!
# Loops whose callbacks only listen

A callback that does not touch the ring only notes what it is told, in whatever way. The loops of a
ring with such a callback come to what their closed forms on the queue say, and what the callback
was told, in order, is the list that its notes were taken of.
-/

namespace RingChannel

variable {α β κ : Type}

namespace Callback

def listening (note : κ → β → κ) : Callback α β κ :=
  fun argument memory ring => .ok (.proceed, note memory argument, ring)

theorem listening_tracks {τ : Type} (kept : RingBuffer α → τ) (gone : Nat) (note : κ → β → κ)
    (argument : β) (memory : κ) (queue : Queue α) :
    Tracks kept gone (listening note argument memory) queue
      (Queue.Reaction.listening note argument memory queue) :=
  fun ring h => ⟨ring, rfl, h, rfl⟩

end Callback

namespace RingBuffer.Holds

variable {ring : RingBuffer α} {gone : Nat} {queue : Queue α}

theorem writeChunked_listening (h : ring.Holds gone queue) (items : Block α) (chunk : Nat)
    (note : κ → Nat → κ) (memory : κ) :
    ∃ next, ring.writeChunked items chunk (.listening note) memory =
        .ok (.returned (min items.size queue.free),
          (splits (chunkLength chunk items.size) (min items.size queue.free)).foldl note memory,
          next) ∧
      next.Holds gone ((queue.append (items.toList.take queue.free)).record
        (.rejected (items.size - min items.size queue.free))) ∧
      next.tail = ring.tail := by
  rcases writeChunked_tracks (fun _ _ hsame => hsame) (Callback.listening_tracks tail gone note)
    items chunk memory queue ring h with ⟨next, hrun, hnext, htail⟩
  rw [Queue.writeChunked_listening] at hrun hnext
  exact ⟨next, hrun, hnext, htail⟩

theorem readChunked_listening (h : ring.Holds 0 queue) (buffer : Block α) (chunk : Nat)
    (note : κ → Nat → κ) (memory : κ) :
    ∃ next, ring.readChunked buffer chunk (.listening note) memory =
        .ok (.returned (min buffer.size queue.items.length),
          buffer.cover 0 (queue.items.take buffer.size),
          (splits (chunkLength chunk buffer.size)
            (min buffer.size queue.items.length)).foldl note memory, next) ∧
      next.Holds 0 (queue.remove buffer.size) ∧ next.head = ring.head := by
  rcases readChunked_tracks (fun _ _ hsame => hsame) (Callback.listening_tracks head 0 note)
    buffer chunk memory h with ⟨next, hrun, hnext, hhead⟩
  rw [Queue.readChunked_listening] at hrun hnext
  exact ⟨next, hrun, hnext, hhead⟩

theorem drain_listening (h : ring.Holds 0 queue) (limit : Nat) (note : κ → α → κ) (memory : κ) :
    ∃ next, ring.drain limit (.listening note) memory =
        .ok (.returned (min limit queue.items.length), (queue.items.take limit).foldl note memory,
          next) ∧
      next.Holds 0 (queue.remove limit) ∧ next.head = ring.head := by
  rcases drain_tracks
    (fun gone => Callback.listening_tracks (fun ring => (ring.tail, ring.head)) gone note)
    (fun _ _ queue => List.prefix_refl queue.items) (fun _ _ hsame => hsame) limit memory queue
    ring h with ⟨next, hrun, hnext, hhead⟩
  rw [Queue.drain_listening] at hrun hnext
  exact ⟨next, hrun, hnext, hhead⟩

end RingBuffer.Holds

end RingChannel
