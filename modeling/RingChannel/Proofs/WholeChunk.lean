import RingChannel.Proofs.ChunkedTransfer

/-!
# One chunk for the whole

A transfer that is asked for one chunk takes the length of its block for that of a chunk, and still
samples the ring anew after each. So its first chunk is all that could be moved at first. It is the
only one unless something is left to do and the code of the caller has made that possible meanwhile,
through calls of the other side.
-/

namespace RingChannel

variable {α κ : Type}

/-- The ways in which a transfer of `size` items in one chunk goes, where a ring allows `room`. It is
resumed if the code of the caller has let the other side make room or items for one more chunk. -/
inductive WholeChunk (room : RingBuffer α → Nat) (size : Nat) (start : RingBuffer α) :
    List (Visit α) → Outcome Nat → Prop where
  | nothing (hnone : min size (room start) = 0) : WholeChunk room size start [] (.returned 0)
  | single (visit : Visit α) (hcount : visit.count = min size (room start))
      (hsome : 1 ≤ visit.count) (hsignal : visit.signal = .proceed)
      (hdone : visit.count = size ∨ room visit.left = 0) :
      WholeChunk room size start [visit] (.returned visit.count)
  | panicked (visit : Visit α) (hcount : visit.count = min size (room start))
      (hsome : 1 ≤ visit.count) (hsignal : visit.signal = .panic) :
      WholeChunk room size start [visit] (.panicked .callback)
  | resumed (visit next : Visit α) (more : List (Visit α)) (outcome : Outcome Nat)
      (hcount : visit.count = min size (room start)) (hsome : 1 ≤ visit.count)
      (hsignal : visit.signal = .proceed) (hleft : visit.count < size)
      (hnext : next.count = min (size - visit.count) (room visit.left))
      (hagain : 1 ≤ next.count) : WholeChunk room size start (visit :: next :: more) outcome

theorem WholeChunk.of_full {room : RingBuffer α → Nat} {size : Nat} {start : RingBuffer α}
    {visits : List (Visit α)} {outcome : Outcome Nat} {stuck : Prop}
    (hfull : Visit.Each (Visit.Full start room size size) visits)
    (hfits : Visit.Each (fun before visit => visit.Fits size size before) visits)
    (hends : Visit.Ends size stuck visits outcome)
    (hstuck : stuck → room (Visit.last start visits) = 0) :
    WholeChunk room size start visits outcome := by
  cases visits with
  | nil =>
      rcases hends.returned (List.forall_mem_nil _) with ⟨rfl, hshort⟩
      refine .nothing ?_
      by_cases hsize : size = 0
      · rw [hsize, Nat.zero_min]
      · have hroom : room start = 0 := hstuck (hshort (Nat.pos_of_ne_zero hsize))
        rw [hroom, Nat.min_zero]
  | cons visit more =>
      have hcount : visit.count = min (min size (size - 0)) (room start) := hfull [] visit more rfl
      have hfirst := hfits [] visit more rfl
      have hle : 0 + visit.count ≤ size := hfirst.total_le
      rw [Nat.sub_zero, Nat.min_self] at hcount
      cases more with
      | nil =>
          cases hsignal : visit.signal with
          | panic =>
              rw [hends.panicked ⟨visit, List.mem_singleton_self visit, hsignal⟩]
              exact .panicked visit hcount hfirst.one_le hsignal
          | proceed =>
              have hproceeded : ∀ earlier ∈ [visit], earlier.signal = .proceed :=
                List.forall_mem_singleton.2 hsignal
              rcases hends.returned hproceeded with ⟨rfl, hshort⟩
              refine .single visit hcount hfirst.one_le hsignal ?_
              by_cases hdone : visit.count = size
              · exact .inl hdone
              · have htotal : Visit.total [visit] < size := by
                  change visit.count + 0 < size
                  omega
                exact .inr (hstuck (hshort htotal))
      | cons next more =>
          have hnext : next.count = min (min size (size - (visit.count + 0))) (room visit.left) :=
            hfull [visit] next more rfl
          have hsecond := hfits [visit] next more rfl
          have hone := hsecond.one_le
          exact .resumed visit next more outcome hcount hfirst.one_le
            (hsecond.proceeded visit (List.mem_singleton_self visit)) (by omega) (by omega) hone

namespace RingBuffer

/-- A transfer in one chunk, on a ring at rest, goes in one of these ways, whatever its callback
does on the other side. -/
theorem whole_chunk_transfers [Item α] {ring : RingBuffer α} (h : ring.Invariant 0)
    (block : Block α) (face : Face) (limit : Nat) (onChunk : Callback α Nat κ) (memory : κ) :
    (onChunk.Through (Channel.consumeInside face) →
      ∃ outcome memory' visits final,
        ring.writeChunked block 0 onChunk memory = .ok (outcome, memory', final) ∧
        ring.writeChunked block 0 onChunk.noted (memory, []) =
          .ok (outcome, (memory', visits), final) ∧
        WholeChunk room block.size ring visits outcome) ∧
    (onChunk.Through (Channel.produceInside limit face) →
      ∃ outcome filled memory' visits final,
        ring.readChunked block 0 onChunk memory = .ok (outcome, filled, memory', final) ∧
        ring.readChunked block 0 onChunk.noted (memory, []) =
          .ok (outcome, filled, (memory', visits), final) ∧
        WholeChunk live block.size ring visits outcome) := by
  refine ⟨fun hthrough => ?_, fun hthrough => ?_⟩
  · rcases h.writeChunked_full hthrough.consumes block 0 memory with
      ⟨outcome, memory', visits, final, hrun, hlog, hwritten, hfull⟩
    refine ⟨outcome, memory', visits, final, hrun, hlog, ?_⟩
    refine .of_full hfull (hwritten.each.mono fun _ _ hvisit => hvisit.fits) hwritten.ends ?_
    intro hstuck
    rw [RingBuffer.free_eq_subtract] at hstuck
    exact (subtract_eq_ok_iff.1 hstuck).2
  · rcases h.readChunked_full hthrough.produces block 0 memory with
      ⟨outcome, filled, memory', visits, final, hrun, hlog, hread, hfull⟩
    refine ⟨outcome, filled, memory', visits, final, hrun, hlog, ?_⟩
    refine .of_full hfull (hread.each.mono fun _ _ hvisit => hvisit.fits) hread.ends ?_
    intro hstuck
    rw [← hread.final_eq]
    exact hstuck

/-- Three items are written to a ring for two, and one is removed after the first chunk. Then three
are read, and one is inserted after the first chunk. Both transfers are resumed. -/
theorem whole_chunk_transfers_resumed :
    let ring : RingBuffer Tracked :=
      ⟨18446744073709551615, 18446744073709551615, 1, .empty 2, .counting, .zero⟩
    let items : Block Tracked := .ofArray #[⟨1, false⟩, ⟨2, false⟩, ⟨3, false⟩]
    let buffer : Block Tracked := .replicate 3 ⟨0, false⟩
    let removing : Callback Tracked Nat (Journal Tracked Nat) :=
      (Interlude.ofScript true Channel.consumeInside [[.remove]]).callback .fixed none
    let inserting : Callback Tracked Nat (Journal Tracked Nat) :=
      (Interlude.ofScript true (Channel.produceInside 64) [[.insert ⟨4, false⟩]]).callback .fixed
        none
    ring.Invariant 0 ∧ removing.Through (Channel.consumeInside .fixed) ∧
    inserting.Through (Channel.produceInside 64 .fixed) ∧
    ∃ journal visits written journal' visits' filled final,
      ring.writeChunked items 0 removing .empty = .ok (.returned 3, journal, written) ∧
      WholeChunk room 3 ring visits (.returned 3) ∧ visits.map Visit.count = [2, 1] ∧
      written.readChunked buffer 0 inserting .empty =
        .ok (.returned 3, filled, journal', final) ∧
      WholeChunk live 3 written visits' (.returned 3) ∧ visits'.map Visit.count = [2, 1] := by
  intro ring items buffer removing inserting
  have hring : RingBuffer.create 64 2 .counting 18446744073709551615 = .ok ring := rfl
  have hsound : ring.Invariant 0 := (holds_of_create hring).invariant
  have hremoving : removing.Through (Channel.consumeInside .fixed) :=
    Callback.through_ofScript true _ .fixed none
  have hinserting : inserting.Through (Channel.produceInside 64 .fixed) :=
    Callback.through_ofScript true _ .fixed none
  rcases (whole_chunk_transfers hsound items .fixed 64 removing .empty).1 hremoving with
    ⟨outcome, journal, visits, written, hwrite, hnoted, hwhole⟩
  rcases hsound.writeChunked hremoving.consumes items 0 .empty with
    ⟨_, _, _, _, hsame, -, hwritten⟩
  rw [hwrite] at hsame
  cases hsame
  rcases (whole_chunk_transfers hwritten.sound buffer .fixed 64 inserting .empty).2 hinserting with
    ⟨outcome', filled, journal', visits', final, hread, hnoted', hwhole'⟩
  have hall : (do
      let (outcome, (_, visits), written) ← ring.writeChunked items 0 removing.noted (.empty, [])
      let (outcome', _, (_, visits'), _) ←
        written.readChunked buffer 0 inserting.noted (.empty, [])
      .ok (outcome, visits.map Visit.count, outcome', visits'.map Visit.count)) =
      (.ok (.returned 3, [2, 1], .returned 3, [2, 1]) :
        Checked (Outcome Nat × List Nat × Outcome Nat × List Nat)) := by
    cbv
  simp only [hnoted, hnoted', ok_bind, Except.ok.injEq, Prod.mk.injEq] at hall
  rcases hall with ⟨rfl, hcounts, rfl, hcounts'⟩
  exact ⟨hsound, hremoving, hinserting, journal, visits, written, journal', visits', filled, final,
    hwrite, hwhole, hcounts, hread, hwhole', hcounts'⟩

/-- What fits at first is not always the only chunk: room for two of three items, two chunks, and an
answer of three. -/
theorem writeChunked_second_chunk :
    let ring : RingBuffer UInt64 := ⟨0, 0, 1, .empty 2, .plain, .zero⟩
    let items : Block UInt64 := .ofArray #[1, 2, 3]
    let removing : Callback UInt64 Nat (Journal UInt64 Nat) :=
      (Interlude.ofScript true Channel.consumeInside [[.remove]]).callback .fixed none
    create 64 2 .plain 0 = .ok ring ∧ min items.size ring.room = 2 ∧
      ∃ journal final, ring.writeChunked items 0 removing .empty =
        .ok (.returned 3, journal, final) ∧ journal.told.toList = [2, 1] := by
  intro ring items removing
  have hring : create 64 2 .plain 0 = .ok ring := rfl
  have hsound : ring.Invariant 0 := (holds_of_create hring).invariant
  have hremoving : removing.Through (Channel.consumeInside .fixed) :=
    Callback.through_ofScript true _ .fixed none
  rcases hsound.writeChunked hremoving.consumes items 0 .empty with
    ⟨outcome, journal, -, final, hwrite, -, -⟩
  have htold : (do
      let (outcome, journal, _) ← ring.writeChunked items 0 removing .empty
      .ok (outcome, journal.told.toList)) =
      (.ok (.returned 3, [2, 1]) : Checked (Outcome Nat × List Nat)) := by
    cbv
  simp only [hwrite, ok_bind, Except.ok.injEq, Prod.mk.injEq] at htold
  rcases htold with ⟨rfl, htold⟩
  exact ⟨hring, by decide, journal, final, hwrite, htold⟩

end RingBuffer

end RingChannel
