import RingChannel.Proofs.Queue.Calls

/-!
# Loops with calm callbacks

A callback that leaves the other side alone and does not panic only notes what it is told. The
loops then have closed forms: all that fits is moved in chunks of equal length, but for the last.
How the callback notes what it is told does not matter; that of a session keeps a journal.
-/

namespace RingChannel

variable {α β κ : Type}

/-- The lengths of the chunks in which `count` items are moved. -/
def splits (chunk count : Nat) : List Nat :=
  List.replicate (count / chunk) chunk ++ if count % chunk = 0 then [] else [count % chunk]

theorem splits_zero (chunk : Nat) : splits chunk 0 = [] := by
  simp [splits]

theorem splits_of_pos {chunk count : Nat} (hchunk : 0 < chunk) (hcount : 0 < count) :
    splits chunk count = min chunk count :: splits chunk (count - min chunk count) := by
  by_cases hle : chunk ≤ count
  · obtain ⟨rest, rfl⟩ := Nat.exists_eq_add_of_le hle
    rw [Nat.min_eq_left hle, Nat.add_sub_cancel_left]
    unfold splits
    rw [Nat.add_div_left rest hchunk, Nat.add_mod_left, List.replicate_succ, List.cons_append]
  · have hlt : count < chunk := by omega
    rw [Nat.min_eq_right (by omega), Nat.sub_self, splits_zero]
    unfold splits
    rw [Nat.div_eq_of_lt hlt, Nat.mod_eq_of_lt hlt, List.replicate_zero, List.nil_append,
      if_neg (by omega)]

/-- Only the last chunk may be shorter than the others. -/
theorem eq_of_mem_dropLast_splits {chunk count n : Nat} (h : n ∈ (splits chunk count).dropLast) :
    n = chunk ∧ chunk < count := by
  have hdiv := Nat.div_add_mod count chunk
  unfold splits at h
  by_cases hrest : count % chunk = 0
  · rw [if_pos hrest, List.append_nil, List.dropLast_replicate, List.mem_replicate] at h
    have htwice : chunk * 2 ≤ chunk * (count / chunk) := Nat.mul_le_mul_left chunk (by omega)
    have hpos : chunk ≠ 0 := by
      rintro rfl
      simp at h
    exact ⟨h.2, by omega⟩
  · rw [if_neg hrest, List.dropLast_concat, List.mem_replicate] at h
    have honce : chunk * 1 ≤ chunk * (count / chunk) :=
      Nat.mul_le_mul_left chunk (Nat.pos_of_ne_zero h.1)
    exact ⟨h.2, by omega⟩

theorem eq_of_mem_dropLast_splits_chunkLength {chunk total count n : Nat} (hle : count ≤ total)
    (h : n ∈ (splits (RingBuffer.chunkLength chunk total) count).dropLast) : n = chunk := by
  rcases eq_of_mem_dropLast_splits h with ⟨hn, hmore⟩
  unfold RingBuffer.chunkLength at hn hmore
  split at hn
  · rename_i hall
    rw [if_pos hall] at hmore
    omega
  · exact hn

def Journal.hear {β : Type} (told : List β) (journal : Journal α β) : Journal α β :=
  { journal with told := journal.told ++ told.toArray }

@[simp] theorem Journal.hear_nil {β : Type} (journal : Journal α β) :
    journal.hear [] = journal := by
  simp [hear]

theorem Journal.hear_hear {β : Type} (journal : Journal α β) (first second : List β) :
    (journal.hear first).hear second = journal.hear (first ++ second) := by
  simp [hear]

theorem Journal.foldl_hear {β : Type} (told : List β) (journal : Journal α β) :
    told.foldl (fun journal argument => journal.hear [argument]) journal = journal.hear told := by
  induction told generalizing journal with
  | nil => exact journal.hear_nil.symm
  | cons argument rest ih => rw [List.foldl_cons, ih, Journal.hear_hear, List.singleton_append]

@[simp] theorem Journal.toList_hear_empty {β : Type} (told : List β) :
    ((empty : Journal α β).hear told).told.toList = told := by
  simp [hear, empty]

@[simp] theorem Journal.size_hear_empty {β : Type} (told : List β) :
    ((empty : Journal α β).hear told).told.size = told.length := by
  simp [hear, empty]

@[simp] theorem Journal.nested_hear {β : Type} (told : List β) (journal : Journal α β) :
    (journal.hear told).nested = journal.nested := rfl

namespace Queue

/-- Code of the caller that leaves the other side alone and does not panic. It notes what it is
told. -/
def Reaction.listening (note : κ → β → κ) : Reaction α β κ :=
  fun argument memory queue => (.proceed, note memory argument, queue)

namespace Meanwhile

theorem quiet_callback (face : Face) :
    (quiet.callback face none : Reaction α β (Journal α β)) =
      .listening fun journal argument => journal.hear [argument] := by
  funext argument journal queue
  simp [callback, invoke, quiet, Journal.note, Journal.hear, Reaction.listening]

end Meanwhile

/-! ## Closed forms -/

theorem writeRounds_listening (note : κ → Nat → κ) (items : Block α) {chunk written : Nat}
    (hchunk : written < items.size → 0 < chunk) (hle : written ≤ items.size) (memory : κ)
    (queue : Queue α) :
    queue.writeRounds items chunk (.listening note) written memory =
      (.returned (written + min (items.size - written) queue.free),
        (splits chunk (min (items.size - written) queue.free)).foldl note memory,
        queue.append ((items.toList.drop written).take queue.free)) := by
  fun_induction Queue.writeRounds items chunk (.listening note) written memory queue with
  | case1 written memory queue count hcount =>
      have hnone : min (items.size - written) queue.free = 0 := by omega
      rw [hnone, splits_zero]
      have hempty : (items.toList.drop written).take queue.free = [] := by
        rw [← List.length_eq_zero_iff, List.length_take, List.length_drop, Block.length_toList]
        omega
      rw [hempty, append_nil]
      rfl
  | case2 written memory queue count hcount memory' queue' hrun ih =>
      cases hrun
      have hlength : ((items.toList.drop written).take count).length = count := by
        simp
        omega
      have hfree : (queue.append ((items.toList.drop written).take count)).free =
          queue.free - count := by
        rw [free_append, hlength]
      rw [ih (by omega) (by omega), hfree, append_append]
      have hpos : 0 < min (items.size - written) queue.free := by omega
      have hfirst : min chunk (min (items.size - written) queue.free) = count := by omega
      rw [splits_of_pos (by omega) hpos, hfirst, List.foldl_cons]
      have hrest : min (items.size - (written + count)) (queue.free - count) =
          min (items.size - written) queue.free - count := by omega
      have hsum : written + count + (min (items.size - written) queue.free - count) =
          written + min (items.size - written) queue.free := by omega
      have hitems : (items.toList.drop written).take count ++
          (items.toList.drop (written + count)).take (queue.free - count) =
            (items.toList.drop written).take queue.free := by
        rw [← List.drop_drop, ← List.take_add]
        congr 1
        omega
      rw [hrest, hsum, hitems]
  | case3 written memory queue count hcount memory' queue' hrun => cases hrun

theorem readRounds_listening (note : κ → Nat → κ) {chunk total done : Nat}
    (hchunk : done < total → 0 < chunk) (hle : done ≤ total) (buffer : Block α) (memory : κ)
    (queue : Queue α) :
    queue.readRounds chunk (.listening note) total done buffer memory =
      (.returned (done + min (total - done) queue.items.length),
        buffer.cover done (queue.items.take (total - done)),
        (splits chunk (min (total - done) queue.items.length)).foldl note memory,
        queue.remove (total - done)) := by
  fun_induction Queue.readRounds chunk (.listening note) total done buffer memory queue with
  | case1 done buffer memory queue count hcount =>
      by_cases hdone : total - done = 0
      · rw [hdone, Nat.zero_min, splits_zero, List.take_zero, Block.cover_nil, remove_zero]
        rfl
      · have hnil : queue.items = [] := List.length_eq_zero_iff.1 (by omega)
        rw [remove_of_nil hnil, hnil, List.length_nil, Nat.min_zero, splits_zero, List.take_nil,
          Block.cover_nil]
        rfl
  | case2 =>
      rename_i done buffer memory queue count hcount buffer' memory' queue' hrun ih
      cases hrun
      have hlength : (queue.items.take count).length = count := by
        rw [List.length_take]
        omega
      have hcover := Block.cover_cover buffer done (queue.items.take count)
        ((queue.items.drop count).take (total - (done + count)))
      rw [hlength] at hcover
      rw [ih (by omega) (by omega), remove_remove, items_remove, hcover, ← List.take_add,
        List.length_drop]
      have hpos : 0 < min (total - done) queue.items.length := by omega
      have hfirst : min chunk (min (total - done) queue.items.length) = count := by omega
      rw [splits_of_pos (by omega) hpos, hfirst, List.foldl_cons]
      have hrest : min (total - (done + count)) (queue.items.length - count) =
          min (total - done) queue.items.length - count := by omega
      have hsum : done + count + (min (total - done) queue.items.length - count) =
          done + min (total - done) queue.items.length := by omega
      have hall : count + (total - (done + count)) = total - done := by omega
      rw [hrest, hsum, hall]
  | case3 =>
      rename_i done buffer memory queue count hcount buffer' memory' queue' hrun
      cases hrun

theorem chunkLength_pos {chunk total : Nat} (h : 0 < total) :
    0 < RingBuffer.chunkLength chunk total := by
  unfold RingBuffer.chunkLength
  split <;> omega

theorem writeChunked_listening (note : κ → Nat → κ) (items : Block α) (chunk : Nat) (memory : κ)
    (queue : Queue α) :
    queue.writeChunked items chunk (.listening note) memory =
      (.returned (min items.size queue.free),
        (splits (RingBuffer.chunkLength chunk items.size) (min items.size queue.free)).foldl note
          memory,
        (queue.append (items.toList.take queue.free)).record
          (.rejected (items.size - min items.size queue.free))) := by
  unfold writeChunked
  rw [writeRounds_listening note items chunkLength_pos (Nat.zero_le _)]
  simp only [Nat.zero_add, Nat.sub_zero, List.drop_zero]

theorem readChunked_listening (note : κ → Nat → κ) (buffer : Block α) (chunk : Nat) (memory : κ)
    (queue : Queue α) :
    queue.readChunked buffer chunk (.listening note) memory =
      (.returned (min buffer.size queue.items.length),
        buffer.cover 0 (queue.items.take buffer.size),
        (splits (RingBuffer.chunkLength chunk buffer.size)
          (min buffer.size queue.items.length)).foldl note memory,
        queue.remove buffer.size) := by
  unfold readChunked
  rw [readRounds_listening note chunkLength_pos (Nat.zero_le _)]
  simp only [Nat.zero_add, Nat.sub_zero]

theorem drainRun_listening (note : κ → α → κ) (items : List α) (done : Nat) (memory : κ)
    (queue : Queue α) :
    queue.drainRun (.listening note) items done memory =
      (.returned (), done + items.length, items.foldl note memory, queue) := by
  induction items generalizing done memory with
  | nil => rfl
  | cons item rest ih =>
      unfold drainRun
      simp only [Reaction.listening] at ih ⊢
      rw [ih, List.length_cons, Nat.add_right_comm, Nat.add_assoc, List.foldl_cons]

theorem drain_listening (note : κ → α → κ) (limit : Nat) (memory : κ) (queue : Queue α) :
    queue.drain limit (.listening note) memory =
      (.returned (min limit queue.items.length), (queue.items.take limit).foldl note memory,
        queue.remove limit) := by
  unfold drain
  rw [drainRun_listening]
  simp only [Nat.zero_add, List.length_take, behead_record_removed]

/-! ## With a journal -/

theorem writeChunked_calm (face : Face) (items : Block α) (chunk : Nat) (queue : Queue α) :
    queue.writeChunked items chunk (Meanwhile.quiet.callback face none) .empty =
      (.returned (min items.size queue.free),
        Journal.empty.hear
          (splits (RingBuffer.chunkLength chunk items.size) (min items.size queue.free)),
        (queue.append (items.toList.take queue.free)).record
          (.rejected (items.size - min items.size queue.free))) := by
  rw [Meanwhile.quiet_callback, writeChunked_listening, Journal.foldl_hear]

theorem readChunked_calm (face : Face) (buffer : Block α) (chunk : Nat) (queue : Queue α) :
    queue.readChunked buffer chunk (Meanwhile.quiet.callback face none) .empty =
      (.returned (min buffer.size queue.items.length),
        buffer.cover 0 (queue.items.take buffer.size),
        Journal.empty.hear
          (splits (RingBuffer.chunkLength chunk buffer.size) (min buffer.size queue.items.length)),
        queue.remove buffer.size) := by
  rw [Meanwhile.quiet_callback, readChunked_listening, Journal.foldl_hear]

theorem drainRun_calm (face : Face) (items : List α) (done : Nat) (journal : Journal α α)
    (queue : Queue α) :
    queue.drainRun (Meanwhile.quiet.callback face none) items done journal =
      (.returned (), done + items.length, journal.hear items, queue) := by
  rw [Meanwhile.quiet_callback, drainRun_listening, Journal.foldl_hear]

end Queue

end RingChannel
