import Mathlib.Order.Defs.LinearOrder
import RingChannel.Proofs.Queue.Calm
import RingChannel.Proofs.Visits

/-!
# Transfers in chunks

A chunked transfer moves one chunk, publishes it and runs code of its caller, again and again. That
code may do to the ring whatever calls of the other side can do, so each round finds another amount
of room or of items. The cursor of the side at work, what it has counted and what it has moved so
far are nevertheless known at each invocation, from what the code has been told until then.
-/

namespace RingChannel

variable {α κ : Type}

namespace Visit

structure Fits (size chunk : Nat) (before : List (Visit α)) (visit : Visit α) : Prop where
  proceeded : ∀ earlier ∈ before, earlier.signal = .proceed
  one_le : 1 ≤ visit.count
  count_le : visit.count ≤ chunk
  total_le : total before + visit.count ≤ size

/-- From `start` on, the visit is told of all that a chunk, what is left to do, and the room in the
ring before it allow. -/
def Full (start : RingBuffer α) (room : RingBuffer α → Nat) (size chunk : Nat)
    (before : List (Visit α)) (visit : Visit α) : Prop :=
  visit.count = min (min chunk (size - total before)) (room (last start before))

/-- How a transfer of `size` items ends after its visits. If none has panicked, it answers what they
were told in all, and falls short only where it was stuck. -/
structure Ends (size : Nat) (stuck : Prop) (visits : List (Visit α)) (outcome : Outcome Nat) :
    Prop where
  returned : (∀ visit ∈ visits, visit.signal = .proceed) →
    outcome = .returned (total visits) ∧ (total visits < size → stuck)
  panicked : (∃ visit ∈ visits, visit.signal = .panic) → outcome = .panicked .callback

variable {size chunk : Nat} {stuck : Prop} {visits : List (Visit α)}

theorem Each.total_le (h : Each (fun before visit => visit.Fits size chunk before) visits) :
    total visits ≤ size := by
  rcases List.eq_nil_or_concat visits with rfl | ⟨before, visit, rfl⟩
  · exact Nat.zero_le size
  · rw [List.concat_eq_append] at h ⊢
    rw [total_concat]
    exact (h before visit [] rfl).total_le

/-- Every visit is told of something, so there are no more of them than items. -/
theorem Each.length_le (h : Each (fun before visit => visit.Fits size chunk before) visits) :
    visits.length ≤ size :=
  Nat.le_trans (length_le_total (h.forall_mem fun _ _ hfits => hfits.one_le)) h.total_le

theorem proceeded_concat {visit : Visit α}
    (hproceeded : ∀ visit ∈ visits, visit.signal = .proceed) (hsignal : visit.signal = .proceed) :
    ∀ earlier ∈ visits ++ [visit], earlier.signal = .proceed := by
  intro earlier hin
  rcases List.mem_append.1 hin with hin | hin
  · exact hproceeded earlier hin
  · rw [List.mem_singleton.1 hin]
    exact hsignal

theorem Ends.of_proceeded (hproceeded : ∀ visit ∈ visits, visit.signal = .proceed)
    (hstuck : total visits < size → stuck) : Ends size stuck visits (.returned (total visits)) where
  returned _ := ⟨rfl, hstuck⟩
  panicked := by
    rintro ⟨visit, hin, hpanic⟩
    rw [hproceeded visit hin] at hpanic
    cases hpanic

theorem Ends.of_panicked {visit : Visit α} (hin : visit ∈ visits)
    (hpanic : visit.signal = .panic) : Ends size stuck visits (.panicked .callback) where
  returned hproceeded := by
    rw [hproceeded visit hin] at hpanic
    cases hpanic
  panicked _ := rfl

theorem Ends.cases {outcome : Outcome Nat} (h : Ends size stuck visits outcome) :
    outcome = .returned (total visits) ∨ outcome = .panicked .callback := by
  by_cases hpanicked : ∃ visit ∈ visits, visit.signal = .panic
  · exact .inr (h.panicked hpanicked)
  · refine .inl (h.returned fun visit hin => ?_).1
    cases hsignal : visit.signal with
    | proceed => rfl
    | panic => exact absurd ⟨visit, hin, hsignal⟩ hpanicked

end Visit

namespace RingBuffer

variable {start ring found left : RingBuffer α} {items : Block α} {done : Nat}

/-! ## Writing -/

/-- Since `start`, the first `done` of the items and no others have been published and counted.
Items at the front may have gone. -/
structure Published (start : RingBuffer α) (items : Block α) (done : Nat) (ring : RingBuffer α) :
    Prop where
  sound : ring.Invariant 0
  order : ring.contents <:+ start.contents ++ items.toList.take done
  head_eq : ring.head = start.head + UInt64.ofNat done
  metered_eq : ring.config.metered = start.config.metered
  inserted_eq : start.config.metered = true →
    ring.counters.inserted = start.counters.inserted + UInt64.ofNat done
  rejected_eq : ring.counters.rejected = start.counters.rejected

theorem Published.none (h : start.Invariant 0) (items : Block α) : start.Published items 0 start :=
  ⟨h, by simp, (UInt64.add_zero _).symm, rfl, fun _ => (UInt64.add_zero _).symm, rfl⟩

theorem Published.write (h : start.Published items done ring) (count : Nat)
    (hle : done + count ≤ items.size)
    (hfound : found.Holds 0 (ring.queue.append ((items.toList.drop done).take count)))
    (htail : found.tail = ring.tail) : start.Published items (done + count) found := by
  have hlength : ((items.toList.drop done).take count).length = count := by
    simp
    omega
  refine ⟨hfound.invariant, ?_, ?_, ?_, fun hmetered => ?_, ?_⟩
  · rcases h.order with ⟨gone, hgone⟩
    refine ⟨gone, ?_⟩
    rw [hfound.contents_eq, Queue.items_append, List.take_add, ← List.append_assoc start.contents,
      ← hgone, List.append_assoc gone]
    rfl
  · rw [hfound.head_eq, htail, Queue.items_append, List.length_append, hlength, UInt64.ofNat_add,
      ← UInt64.add_assoc, ← h.sound.holds.head_eq, h.head_eq, UInt64.add_assoc, ← UInt64.ofNat_add]
  · rw [hfound.metered_eq, Queue.metered_append]
    exact h.metered_eq
  · rw [hfound.counters_eq, Queue.inserted_append (h.metered_eq.trans hmetered), hlength,
      UInt64.ofNat_add, ← UInt64.add_assoc, ← h.inserted_eq hmetered]
    rfl
  · rw [hfound.counters_eq, Queue.rejected_append]
    exact h.rejected_eq

theorem Published.consumed (h : start.Published items done ring) {next : Queue α}
    (hleft : left.Holds 0 next) (hhead : left.head = ring.head) (hnext : ring.queue.Consumed next) :
    start.Published items done left := by
  refine ⟨hleft.invariant, ?_, hhead.trans h.head_eq, ?_, fun hmetered => ?_, ?_⟩
  · rw [hleft.contents_eq]
    exact hnext.suffix_items.trans h.order
  · rw [hleft.metered_eq, hnext.metered_eq]
    exact h.metered_eq
  · rw [hleft.counters_eq, hnext.level.inserted_eq]
    exact h.inserted_eq hmetered
  · rw [hleft.counters_eq, hnext.level.rejected_eq]
    exact h.rejected_eq

/-- What the code of the caller finds in the middle of a write: its chunk is behind what it left the
last time, and all that it was told of has been published. -/
structure WriteVisit (start : RingBuffer α) (items : Block α) (chunk : Nat)
    (before : List (Visit α)) (visit : Visit α) : Prop where
  fits : visit.Fits items.size chunk before
  contents_eq : visit.found.contents = (Visit.last start before).contents ++
    (items.toList.drop (Visit.total before)).take visit.count
  published : start.Published items (Visit.total before + visit.count) visit.found

section rounds

variable {onChunk : Callback α Nat κ} {chunk : Nat} {visits : List (Visit α)}

/-- One round of a write after `visits`. -/
theorem Published.round (hleaves : onChunk.Leaves head Queue.Consumed)
    (hproceeded : ∀ visit ∈ visits, visit.signal = .proceed)
    (h : start.Published items (Visit.total visits) (Visit.last start visits)) (memory : κ)
    {count : Nat}
    (hmin : min (min chunk (items.size - Visit.total visits)) (Visit.last start visits).queue.free =
      count)
    (hcount : count ≠ 0) :
    ∃ visit memory', visit.count = count ∧ start.WriteVisit items chunk visits visit ∧
      start.Published items (Visit.total (visits ++ [visit])) visit.left ∧
      (Visit.last start visits).writeRounds items chunk onChunk (Visit.total visits) memory =
        visit.left.writeAfter items chunk onChunk (Visit.total (visits ++ [visit])) memory'
          visit.signal ∧
      (Visit.last start visits).writeRounds items chunk onChunk.noted (Visit.total visits)
          (memory, visits) =
        visit.left.writeAfter items chunk onChunk.noted (Visit.total (visits ++ [visit]))
          (memory', visits ++ [visit]) visit.signal := by
  have hheld := h.sound.holds
  rcases writeRound (fun a b (htail : a.tail = b.tail) => htail) hheld items chunk
    (Visit.total visits) hmin hcount with ⟨found, hfound, htail, hround⟩
  rcases hleaves count memory hfound with
    ⟨signal, memory', left, next, hcall, hleft, hhead, hnext⟩
  have hpublished := h.write count (by omega) hfound htail
  rw [hfound.eq_queue] at hnext
  refine ⟨⟨count, found, left, signal⟩, memory', rfl,
    ⟨⟨hproceeded, Nat.pos_of_ne_zero hcount, by simp only; omega, by simp only; omega⟩, ?_,
      hpublished⟩, ?_, ?_, ?_⟩
  · rw [hfound.contents_eq, Queue.items_append]
    rfl
  · rw [Visit.total_concat]
    exact hpublished.consumed hleft hhead hnext
  · rw [hround, hcall, Visit.total_concat]
    rfl
  · rw [hround, Callback.noted_of_ok hcall, Visit.total_concat]
    rfl

/-- However the code of the caller behaves, the rounds of a write after `visits` go on to an end. -/
theorem Published.rounds (hleaves : onChunk.Leaves head Queue.Consumed)
    (hchunk : 0 < items.size → 0 < chunk)
    (heach : Visit.Each (start.WriteVisit items chunk) visits)
    (hfull : Visit.Each (Visit.Full start room items.size chunk) visits)
    (hproceeded : ∀ visit ∈ visits, visit.signal = .proceed)
    (h : start.Published items (Visit.total visits) (Visit.last start visits)) (memory : κ) :
    ∃ outcome memory' all,
      (Visit.last start visits).writeRounds items chunk onChunk (Visit.total visits) memory =
        .ok (outcome, memory', Visit.last start all) ∧
      (Visit.last start visits).writeRounds items chunk onChunk.noted (Visit.total visits)
          (memory, visits) = .ok (outcome, (memory', all), Visit.last start all) ∧
      Visit.Each (start.WriteVisit items chunk) all ∧
      Visit.Each (Visit.Full start room items.size chunk) all ∧
      start.Published items (Visit.total all) (Visit.last start all) ∧
      Visit.Ends items.size ((Visit.last start all).free = .ok 0) all outcome := by
  -- the induction is on what is left to write: a round that is not the last writes something
  induction hleft : items.size - Visit.total visits using Nat.strongRecOn
    generalizing visits memory with
  | ind left ih =>
      have hheld := h.sound.holds
      have hroom := h.sound.free_queue
      generalize hmin : min (min chunk (items.size - Visit.total visits))
        (Visit.last start visits).queue.free = count
      by_cases hcount : count = 0
      · rw [hcount] at hmin
        refine ⟨.returned (Visit.total visits), memory, visits,
          writeRounds_end hheld items chunk onChunk _ memory hmin,
          writeRounds_end hheld items chunk onChunk.noted _ (memory, visits) hmin, heach, hfull, h,
          .of_proceeded hproceeded fun hshort => ?_⟩
        have hchunk := hchunk (by omega)
        rw [hheld.free_eq]
        congr
        omega
      · rcases h.round hleaves hproceeded memory hmin hcount with
          ⟨visit, memory', hcounted, hvisit, hnow, hrun, hlog⟩
        have heach := heach.concat hvisit
        have hfull := hfull.concat (hcounted.trans (hroom ▸ hmin.symm))
        have hlast := Visit.last_concat start visits visit
        have htotal := Visit.total_concat visits visit
        have hone := hvisit.fits.one_le
        have hle := hvisit.fits.total_le
        rw [← hlast] at hrun hlog hnow
        rw [hrun, hlog]
        cases hsignal : visit.signal with
        | panic =>
            exact ⟨.panicked .callback, memory', visits ++ [visit], rfl, rfl, heach, hfull, hnow,
              .of_panicked List.mem_concat_self hsignal⟩
        | proceed =>
            exact ih _ (by omega) heach hfull (Visit.proceeded_concat hproceeded hsignal) hnow
              memory' rfl

end rounds

/-! ## Reading -/

variable {moved : List α}

structure Taken (start : RingBuffer α) (moved : List α) (done : Nat) (ring : RingBuffer α) :
    Prop where
  sound : ring.Invariant 0
  length_eq : moved.length = done
  order : start.contents <+: moved ++ ring.contents
  tail_eq : ring.tail = start.tail + UInt64.ofNat done
  metered_eq : ring.config.metered = start.config.metered
  removed_eq : start.config.metered = true →
    ring.counters.removed = start.counters.removed + UInt64.ofNat done
  discarded_eq : ring.counters.discarded = start.counters.discarded

theorem Taken.none (h : start.Invariant 0) : start.Taken [] 0 start :=
  ⟨h, rfl, List.prefix_refl _, (UInt64.add_zero _).symm, rfl, fun _ => (UInt64.add_zero _).symm,
    rfl⟩

theorem Taken.read (h : start.Taken moved done ring) {count : Nat}
    (hle : count ≤ ring.contents.length) (hfound : found.Holds 0 (ring.queue.remove count))
    (hhead : found.head = ring.head) :
    start.Taken (moved ++ ring.contents.take count) (done + count) found := by
  have hcontents : found.contents = ring.contents.drop count := by
    rw [hfound.contents_eq, Queue.items_remove]
    rfl
  refine ⟨hfound.invariant, ?_, ?_, ?_, ?_, fun hmetered => ?_, ?_⟩
  · rw [List.length_append, List.length_take, h.length_eq, Nat.min_eq_left hle]
  · rw [hcontents, List.append_assoc, List.take_append_drop]
    exact h.order
  · have hends := hfound.head_eq
    have hlength : ring.contents.length = count + (ring.contents.drop count).length := by
      rw [List.length_drop]
      omega
    rw [hhead, h.sound.holds.head_eq, Queue.items_remove] at hends
    change ring.tail + UInt64.ofNat ring.contents.length =
      found.tail + UInt64.ofNat (ring.contents.drop count).length at hends
    rw [hlength, UInt64.ofNat_add, ← UInt64.add_assoc] at hends
    rw [← (UInt64.add_left_inj _).1 hends, h.tail_eq, UInt64.add_assoc, ← UInt64.ofNat_add]
  · rw [hfound.metered_eq, Queue.metered_remove]
    exact h.metered_eq
  · rw [hfound.counters_eq, Queue.removed_remove (h.metered_eq.trans hmetered) hle,
      UInt64.ofNat_add, ← UInt64.add_assoc, ← h.removed_eq hmetered]
    rfl
  · rw [hfound.counters_eq, Queue.discarded_remove]
    exact h.discarded_eq

/-- Calls of the producer leave everything taken that was. -/
theorem Taken.produced (h : start.Taken moved done ring) {next : Queue α}
    (hleft : left.Holds 0 next) (htail : left.tail = ring.tail) (hnext : ring.queue.Produced next) :
    start.Taken moved done left := by
  refine ⟨hleft.invariant, h.length_eq, ?_, htail.trans h.tail_eq, ?_, fun hmetered => ?_, ?_⟩
  · rw [hleft.contents_eq]
    exact h.order.trans ((List.prefix_append_right_inj moved).2 hnext.prefix_items)
  · rw [hleft.metered_eq, hnext.metered_eq]
    exact h.metered_eq
  · rw [hleft.counters_eq, hnext.removed_eq]
    exact h.removed_eq hmetered
  · rw [hleft.counters_eq, hnext.discarded_eq]
    exact h.discarded_eq

/-- What the code of the caller finds in the middle of the read `run`: its chunk is gone from the
front of what it left the last time, and what it was told of in all has been taken. By then all of
that is in the buffer, and what is left of the run is to go on from there. -/
structure ReadVisit (start : RingBuffer α) (buffer : Block α) (chunk : Nat)
    (onChunk : Callback α Nat κ) (run : Checked (Outcome Nat × Block α × κ × RingBuffer α))
    (before : List (Visit α)) (visit : Visit α) : Prop where
  fits : visit.Fits buffer.size chunk before
  available : visit.count ≤ (Visit.last start before).contents.length
  contents_eq : visit.found.contents = (Visit.last start before).contents.drop visit.count
  taken : start.Taken (Visit.oldest start (before ++ [visit]))
    (Visit.total before + visit.count) visit.found
  filled : ∃ (filled : Block α) (memory : κ),
    filled.toList = Visit.oldest start (before ++ [visit]) ++
      buffer.toList.drop (Visit.total before + visit.count) ∧
    run = do
      let (signal, memory, left) ← onChunk visit.count memory visit.found
      left.readAfter chunk onChunk buffer.size (Visit.total before + visit.count) filled memory
        signal

section rounds

variable {onChunk : Callback α Nat κ} {chunk : Nat} {visits : List (Visit α)} {buffer : Block α}
  {run : Checked (Outcome Nat × Block α × κ × RingBuffer α)}

theorem Taken.round (hleaves : onChunk.Leaves tail Queue.Produced)
    (hproceeded : ∀ visit ∈ visits, visit.signal = .proceed)
    (h : start.Taken (Visit.oldest start visits) (Visit.total visits) (Visit.last start visits))
    (memory : κ)
    (hrun : run = (Visit.last start visits).readRounds chunk onChunk buffer.size
      (Visit.total visits) (buffer.cover 0 (Visit.oldest start visits)) memory)
    {count : Nat}
    (hmin : min (min chunk (buffer.size - Visit.total visits))
      (Visit.last start visits).queue.items.length = count)
    (hcount : count ≠ 0) :
    ∃ visit memory', visit.count = count ∧ start.ReadVisit buffer chunk onChunk run visits visit ∧
      start.Taken (Visit.oldest start (visits ++ [visit])) (Visit.total (visits ++ [visit]))
        visit.left ∧
      run = visit.left.readAfter chunk onChunk buffer.size (Visit.total (visits ++ [visit]))
        (buffer.cover 0 (Visit.oldest start (visits ++ [visit]))) memory' visit.signal ∧
      (Visit.last start visits).readRounds chunk onChunk.noted buffer.size (Visit.total visits)
          (buffer.cover 0 (Visit.oldest start visits)) (memory, visits) =
        visit.left.readAfter chunk onChunk.noted buffer.size (Visit.total (visits ++ [visit]))
          (buffer.cover 0 (Visit.oldest start (visits ++ [visit])))
          (memory', visits ++ [visit]) visit.signal := by
  have hheld := h.sound.holds
  have hle : count ≤ (Visit.last start visits).contents.length := by
    change _ ≤ (Visit.last start visits).queue.items.length
    omega
  rcases readRound (fun a b (hhead : a.head = b.head) => hhead) hheld chunk buffer.size
    (Visit.total visits) (buffer.cover 0 (Visit.oldest start visits)) rfl hmin hcount with
    ⟨found, hfound, hhead, hround⟩
  rcases hleaves count memory hfound with
    ⟨signal, memory', left, next, hcall, hleft, htail, hnext⟩
  have htaken := h.read hle hfound hhead
  rw [hfound.eq_queue] at hnext
  let visit : Visit α := ⟨count, found, left, signal⟩
  have holdest := Visit.oldest_concat start visits visit
  have hcover : (buffer.cover 0 (Visit.oldest start visits)).cover (Visit.total visits)
      ((Visit.last start visits).queue.items.take count) =
        buffer.cover 0 (Visit.oldest start (visits ++ [visit])) := by
    have hcover := buffer.cover_cover 0 (Visit.oldest start visits)
      ((Visit.last start visits).queue.items.take count)
    rw [h.length_eq, Nat.zero_add] at hcover
    rw [hcover, holdest]
    rfl
  rw [← holdest] at htaken
  have hfit : Visit.total visits + count ≤ buffer.size := by omega
  rw [hcover] at hround
  refine ⟨visit, memory', rfl, ⟨⟨hproceeded, Nat.pos_of_ne_zero hcount, ?_, hfit⟩, hle, ?_, htaken,
    buffer.cover 0 (Visit.oldest start (visits ++ [visit])), memory, ?_, ?_⟩, ?_, ?_, ?_⟩
  · change count ≤ chunk
    omega
  · rw [hfound.contents_eq, Queue.items_remove]
    rfl
  · rw [Block.toList_cover_zero (by rw [htaken.length_eq]; exact hfit), htaken.length_eq]
  · exact hrun.trans (hround onChunk memory)
  · rw [Visit.total_concat]
    exact htaken.produced hleft htail hnext
  · rw [hrun, hround, hcall, Visit.total_concat]
    rfl
  · rw [hround, Callback.noted_of_ok hcall, Visit.total_concat]
    rfl

/-- However the code of the caller behaves, the rounds of a read after `visits` go on to an end. -/
theorem Taken.rounds (hleaves : onChunk.Leaves tail Queue.Produced)
    (hchunk : 0 < buffer.size → 0 < chunk)
    (heach : Visit.Each (start.ReadVisit buffer chunk onChunk run) visits)
    (hfull : Visit.Each (Visit.Full start live buffer.size chunk) visits)
    (hproceeded : ∀ visit ∈ visits, visit.signal = .proceed)
    (h : start.Taken (Visit.oldest start visits) (Visit.total visits) (Visit.last start visits))
    (memory : κ)
    (hrun : run = (Visit.last start visits).readRounds chunk onChunk buffer.size
      (Visit.total visits) (buffer.cover 0 (Visit.oldest start visits)) memory) :
    ∃ outcome memory' all,
      run = .ok (outcome, buffer.cover 0 (Visit.oldest start all), memory',
        Visit.last start all) ∧
      (Visit.last start visits).readRounds chunk onChunk.noted buffer.size (Visit.total visits)
          (buffer.cover 0 (Visit.oldest start visits)) (memory, visits) =
        .ok (outcome, buffer.cover 0 (Visit.oldest start all), (memory', all),
          Visit.last start all) ∧
      Visit.Each (start.ReadVisit buffer chunk onChunk run) all ∧
      Visit.Each (Visit.Full start live buffer.size chunk) all ∧
      start.Taken (Visit.oldest start all) (Visit.total all) (Visit.last start all) ∧
      Visit.Ends buffer.size ((Visit.last start all).live = 0) all outcome := by
  -- the induction is on what is left to read: a round that is not the last reads something
  induction hleft : buffer.size - Visit.total visits using Nat.strongRecOn
    generalizing visits memory with
  | ind left ih =>
      have hheld := h.sound.holds
      generalize hmin : min (min chunk (buffer.size - Visit.total visits))
        (Visit.last start visits).queue.items.length = count
      by_cases hcount : count = 0
      · rw [hcount] at hmin
        refine ⟨.returned (Visit.total visits), memory, visits,
          hrun.trans (readRounds_end hheld chunk onChunk _ _ _ memory hmin),
          readRounds_end hheld chunk onChunk.noted _ _ _ (memory, visits) hmin, heach, hfull, h,
          .of_proceeded hproceeded fun hshort => ?_⟩
        have hchunk := hchunk (by omega)
        rw [hheld.live_eq]
        omega
      · rcases h.round hleaves hproceeded memory hrun hmin hcount with
          ⟨visit, memory', hcounted, hvisit, hnow, hrun, hlog⟩
        have heach := heach.concat hvisit
        have hfull := hfull.concat (hcounted.trans (hheld.live_eq ▸ hmin.symm))
        rw [hlog]
        have hlast := Visit.last_concat start visits visit
        have htotal := Visit.total_concat visits visit
        have hone := hvisit.fits.one_le
        have hle := hvisit.fits.total_le
        rw [← hlast] at hrun hnow ⊢
        cases hsignal : visit.signal with
        | panic =>
            rw [hsignal] at hrun
            exact ⟨.panicked .callback, memory', visits ++ [visit], hrun, rfl, heach, hfull, hnow,
              .of_panicked List.mem_concat_self hsignal⟩
        | proceed =>
            rw [hsignal] at hrun
            exact ih _ (by omega) heach hfull (Visit.proceeded_concat hproceeded hsignal) hnow
              memory' hrun rfl

end rounds

/-! ## Whole transfers -/

structure ChunkedWrite (start : RingBuffer α) (items : Block α) (chunk : Nat)
    (visits : List (Visit α)) (outcome : Outcome Nat) (final : RingBuffer α) : Prop where
  sound : final.Invariant 0
  length_le : visits.length ≤ items.size
  each : Visit.Each (start.WriteVisit items (chunkLength chunk items.size)) visits
  published : start.Published items (Visit.total visits) (Visit.last start visits)
  ends : Visit.Ends items.size ((Visit.last start visits).free = .ok 0) visits outcome
  final_of_returned : ∀ written, outcome = .returned written →
    final = if items.size - written = 0 then Visit.last start visits
      else (Visit.last start visits).record (.rejected (items.size - written))
  final_of_panicked : ∀ cause, outcome = .panicked cause → final = Visit.last start visits

structure ChunkedRead (start : RingBuffer α) (buffer : Block α) (chunk : Nat)
    (onChunk : Callback α Nat κ) (memory : κ) (visits : List (Visit α)) (outcome : Outcome Nat)
    (filled : Block α) (final : RingBuffer α) : Prop where
  length_le : visits.length ≤ buffer.size
  each : Visit.Each (start.ReadVisit buffer (chunkLength chunk buffer.size) onChunk
    (start.readChunked buffer chunk onChunk memory)) visits
  taken : start.Taken (Visit.oldest start visits) (Visit.total visits) final
  ends : Visit.Ends buffer.size (final.live = 0) visits outcome
  filled_eq : filled.toList =
    Visit.oldest start visits ++ buffer.toList.drop (Visit.total visits)
  final_eq : final = Visit.last start visits

variable {onChunk : Callback α Nat κ}

/-- However its callback uses the other side, a chunked write ends, and has told its callback of
chunks as long as they could be. -/
theorem Invariant.writeChunked_full (h : start.Invariant 0)
    (hleaves : onChunk.Leaves head Queue.Consumed) (items : Block α) (chunk : Nat) (memory : κ) :
    ∃ outcome memory' visits final,
      start.writeChunked items chunk onChunk memory = .ok (outcome, memory', final) ∧
      start.writeChunked items chunk onChunk.noted (memory, []) =
        .ok (outcome, (memory', visits), final) ∧
      start.ChunkedWrite items chunk visits outcome final ∧
      Visit.Each (Visit.Full start room items.size (chunkLength chunk items.size)) visits := by
  have hnone : start.Published items (Visit.total ([] : List (Visit α))) (Visit.last start []) :=
    .none h items
  rcases hnone.rounds hleaves Queue.chunkLength_pos .nil .nil (List.forall_mem_nil _) memory with
    ⟨outcome, memory', visits, hrun, hlog, heach, hfull, hpublished, hends⟩
  have hfits := heach.mono fun _ _ hvisit => hvisit.fits
  have hrun : start.writeRounds items (chunkLength chunk items.size) onChunk 0 memory = _ := hrun
  have hlog : start.writeRounds items (chunkLength chunk items.size) onChunk.noted 0 (memory, []) =
    _ := hlog
  unfold RingBuffer.writeChunked
  rw [hrun, hlog]
  rcases hends.cases with houtcome | houtcome
  · cases houtcome
    simp only [ok_bind, subtract_of_le hfits.total_le]
    refine ⟨_, memory', visits, _, rfl, rfl, ⟨(hpublished.sound.holds.record_rejected _).invariant,
      hfits.length_le, heach, hpublished, hends, fun written hwritten => ?_, by rintro _ ⟨⟩⟩, hfull⟩
    cases hwritten
    rfl
  · cases houtcome
    exact ⟨_, memory', visits, _, rfl, rfl, ⟨hpublished.sound, hfits.length_le, heach, hpublished,
      hends, by rintro _ ⟨⟩, fun _ _ => rfl⟩, hfull⟩

theorem Invariant.writeChunked (h : start.Invariant 0)
    (hleaves : onChunk.Leaves head Queue.Consumed) (items : Block α) (chunk : Nat) (memory : κ) :
    ∃ outcome memory' visits final,
      start.writeChunked items chunk onChunk memory = .ok (outcome, memory', final) ∧
      start.writeChunked items chunk onChunk.noted (memory, []) =
        .ok (outcome, (memory', visits), final) ∧
      start.ChunkedWrite items chunk visits outcome final := by
  rcases h.writeChunked_full hleaves items chunk memory with
    ⟨outcome, memory', visits, final, hrun, hlog, hwritten, -⟩
  exact ⟨outcome, memory', visits, final, hrun, hlog, hwritten⟩

theorem Invariant.readChunked_full (h : start.Invariant 0)
    (hleaves : onChunk.Leaves tail Queue.Produced) (buffer : Block α) (chunk : Nat) (memory : κ) :
    ∃ outcome filled memory' visits final,
      start.readChunked buffer chunk onChunk memory = .ok (outcome, filled, memory', final) ∧
      start.readChunked buffer chunk onChunk.noted (memory, []) =
        .ok (outcome, filled, (memory', visits), final) ∧
      start.ChunkedRead buffer chunk onChunk memory visits outcome filled final ∧
      Visit.Each (Visit.Full start live buffer.size (chunkLength chunk buffer.size)) visits := by
  have hnone : start.Taken (Visit.oldest start []) (Visit.total ([] : List (Visit α)))
      (Visit.last start []) := .none h
  have hstart : start.readChunked buffer chunk onChunk memory =
      start.readRounds (chunkLength chunk buffer.size) onChunk buffer.size
        (Visit.total ([] : List (Visit α))) (buffer.cover 0 (Visit.oldest start [])) memory := by
    rw [Visit.oldest, Block.cover_nil]
    rfl
  rcases hnone.rounds hleaves Queue.chunkLength_pos .nil .nil (List.forall_mem_nil _) memory
    hstart with ⟨outcome, memory', visits, hrun, hlog, heach, hfull, htaken, hends⟩
  have hfits := heach.mono fun _ _ hvisit => hvisit.fits
  rw [Visit.oldest, Block.cover_nil] at hlog
  refine ⟨outcome, _, memory', visits, _, hrun, hlog, ⟨hfits.length_le, heach, htaken, hends, ?_,
    rfl⟩, hfull⟩
  rw [Block.toList_cover_zero (by rw [htaken.length_eq]; exact hfits.total_le), htaken.length_eq]

theorem Invariant.readChunked (h : start.Invariant 0) (hleaves : onChunk.Leaves tail Queue.Produced)
    (buffer : Block α) (chunk : Nat) (memory : κ) :
    ∃ outcome filled memory' visits final,
      start.readChunked buffer chunk onChunk memory = .ok (outcome, filled, memory', final) ∧
      start.readChunked buffer chunk onChunk.noted (memory, []) =
        .ok (outcome, filled, (memory', visits), final) ∧
      start.ChunkedRead buffer chunk onChunk memory visits outcome filled final := by
  rcases h.readChunked_full hleaves buffer chunk memory with
    ⟨outcome, filled, memory', visits, final, hrun, hlog, hread, -⟩
  exact ⟨outcome, filled, memory', visits, final, hrun, hlog, hread⟩

/-- However the callback of a chunked transfer uses the other side, and wherever it panics, the
transfer ends after no more invocations than it has items to move. It has moved, counted and
published what its callback was told of and nothing else, at each invocation as at the end. If it
stops short, it is because the last invocation left nothing to do, or there was nothing at first. -/
theorem chunked_transfers [Item α] {ring : RingBuffer α} (h : ring.Invariant 0) (block : Block α)
    (chunk : Nat) (face : Face) (limit : Nat) (onChunk : Callback α Nat κ) (memory : κ) :
    (onChunk.Through (Channel.consumeInside face) →
      ∃ outcome memory' visits final,
        ring.writeChunked block chunk onChunk memory = .ok (outcome, memory', final) ∧
        ring.writeChunked block chunk onChunk.noted (memory, []) =
          .ok (outcome, (memory', visits), final) ∧
        ring.ChunkedWrite block chunk visits outcome final) ∧
    (onChunk.Through (Channel.produceInside limit face) →
      ∃ outcome filled memory' visits final,
        ring.readChunked block chunk onChunk memory = .ok (outcome, filled, memory', final) ∧
        ring.readChunked block chunk onChunk.noted (memory, []) =
          .ok (outcome, filled, (memory', visits), final) ∧
        ring.ChunkedRead block chunk onChunk memory visits outcome filled final) :=
  ⟨fun hthrough => h.writeChunked hthrough.consumes block chunk memory,
    fun hthrough => h.readChunked hthrough.produces block chunk memory⟩

/-- Six items are written to a ring for four, in chunks of three, and one is removed after the first
chunk. Then they are read in chunks of three, one is inserted after the first chunk, and the code
of the caller panics after the second. -/
theorem chunked_transfers_crossed :
    let ring : RingBuffer Tracked :=
      ⟨18446744073709551615, 18446744073709551615, 3, .empty 4, .counting, .zero⟩
    let items : Block Tracked := .ofArray #[⟨1, false⟩, ⟨2, false⟩, ⟨3, false⟩, ⟨4, false⟩,
      ⟨5, false⟩, ⟨6, false⟩]
    let removing : Callback Tracked Nat (Journal Tracked Nat) :=
      (Interlude.ofScript true Channel.consumeInside [[.remove]]).callback .fixed none
    let inserting : Callback Tracked Nat (Journal Tracked Nat) :=
      (Interlude.ofScript true (Channel.produceInside 64) [[.insert ⟨7, false⟩]]).callback .fixed
        (some 1)
    ∃ journal visits written journal' visits' filled final,
      ring.writeChunked items 3 removing .empty = .ok (.returned 5, journal, written) ∧
      ring.ChunkedWrite items 3 visits (.returned 5) written ∧
      written.readChunked (.replicate 6 ⟨0, false⟩) 3 inserting .empty =
        .ok (.panicked .callback, filled, journal', final) ∧
      written.ChunkedRead (.replicate 6 ⟨0, false⟩) 3 inserting .empty visits'
        (.panicked .callback) filled final ∧
      visits.map Visit.count = [3, 2] ∧ visits'.map Visit.count = [3, 2] ∧
      filled.toList = [⟨2, false⟩, ⟨3, false⟩, ⟨4, false⟩, ⟨5, false⟩, ⟨7, false⟩, ⟨0, false⟩] := by
  intro ring items removing inserting
  have hring : RingBuffer.create 64 4 .counting 18446744073709551615 = .ok ring := rfl
  have hsound : ring.Invariant 0 := (holds_of_create hring).invariant
  have hremoving : removing.Through (Channel.consumeInside .fixed) :=
    Callback.through_ofScript true _ .fixed none
  have hinserting : inserting.Through (Channel.produceInside 64 .fixed) :=
    Callback.through_ofScript true _ .fixed (some 1)
  rcases (chunked_transfers hsound items 3 .fixed 64 removing .empty).1 hremoving with
    ⟨outcome, journal, visits, written, hwrite, hnoted, hwritten⟩
  rcases (chunked_transfers hwritten.sound (.replicate 6 ⟨0, false⟩) 3 .fixed 64 inserting
    .empty).2 hinserting with
    ⟨outcome', filled, journal', visits', final, hread, hnoted', hdone⟩
  have hall : (do
      let (outcome, (_, visits), written) ←
        ring.writeChunked items 3 removing.noted (.empty, [])
      let (outcome', filled, (_, visits'), _) ←
        written.readChunked (.replicate 6 ⟨0, false⟩) 3 inserting.noted (.empty, [])
      .ok (outcome, visits.map Visit.count, outcome', visits'.map Visit.count, filled.toList)) =
      (.ok (.returned 5, [3, 2], .panicked .callback, [3, 2],
        [⟨2, false⟩, ⟨3, false⟩, ⟨4, false⟩, ⟨5, false⟩, ⟨7, false⟩, ⟨0, false⟩]) :
        Checked (Outcome Nat × List Nat × Outcome Nat × List Nat × List Tracked)) := by
    cbv
  simp only [hnoted, hnoted', ok_bind, Except.ok.injEq, Prod.mk.injEq] at hall
  rcases hall with ⟨rfl, hcounts, rfl, hcounts', hfilled⟩
  exact ⟨journal, visits, written, journal', visits', filled, final, hwrite, hwritten, hread, hdone,
    hcounts, hcounts', hfilled⟩

end RingBuffer

end RingChannel
