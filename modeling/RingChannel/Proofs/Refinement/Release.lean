import RingChannel.Proofs.Refinement.Read

/-!
# Releasing from a ring is releasing from its queue

Discarding and draining empty the front of the window slot by slot before the tail moves. Meanwhile
the ring holds the same queue with a longer vacant front, whatever the handler writes at the back,
and a call that is broken off ends like one that asked for fewer items.
-/

namespace RingChannel

variable {α κ τ : Type}

namespace RingBuffer.Holds

variable {ring : RingBuffer α} {gone : Nat} {queue : Queue α}

theorem destroyRun [Item α] (h : ring.Holds gone queue) (left : Nat)
    (hle : gone + left ≤ queue.items.length) :
    ∃ next, ring.destroyRun ring.tail left gone =
        .ok ((demolish ((queue.items.drop gone).take left)).1,
          (demolish ((queue.items.drop gone).take left)).2,
          gone + (demolish ((queue.items.drop gone).take left)).2.length, next) ∧
      next.Holds (gone + (demolish ((queue.items.drop gone).take left)).2.length) queue ∧
      next.head = ring.head ∧ next.tail = ring.tail := by
  induction left generalizing gone ring with
  | zero => exact ⟨ring, rfl, h, rfl, rfl⟩
  | succ left ih =>
      have hlt : gone < queue.items.length := by omega
      obtain ⟨rest, htake, hrest⟩ := h.take hlt
      rw [List.drop_eq_getElem_cons hlt, List.take_succ_cons, demolish_cons]
      unfold RingBuffer.destroyRun
      simp only [htake, ok_bind]
      split
      · exact ⟨_, rfl, hrest, rfl, rfl⟩
      · obtain ⟨next, hrun, hnext, hhead, htail⟩ := ih hrest (by omega)
        have hlength : ∀ n, gone + 1 + n = gone + (n + 1) := by omega
        rw [hlength] at hrun hnext
        refine ⟨next, ?_, hnext, hhead, htail⟩
        have hrun : RingBuffer.destroyRun ring.tail left (gone + 1) { ring with store := rest } =
          _ := hrun
        rw [hrun]
        rfl

theorem discard [Item α] (h : ring.Holds 0 queue) (count : Nat) :
    ∃ next, ring.discard count =
        .ok ((queue.discard count).1, (queue.discard count).2.1, next) ∧
      next.Holds 0 (queue.discard count).2.2 ∧ next.head = ring.head := by
  unfold RingBuffer.discard Queue.discard
  simp only [consumerWindow_eq, ok_bind, h.live_eq]
  have htake : queue.items.take count = queue.items.take (min count queue.items.length) :=
    List.take_eq_take_min
  rw [htake]
  generalize hn : min count queue.items.length = n
  have hle : n ≤ queue.items.length := by omega
  by_cases hzero : n = 0
  · subst hzero
    simp only [if_true, List.take_zero, demolish_nil, List.length_nil, Queue.behead_zero,
      Queue.record_discarded_zero]
    exact ⟨ring, rfl, h, rfl⟩
  · obtain ⟨emptied, hrun, hemptied, hhead, htail⟩ := h.destroyRun n (by omega)
    rw [List.drop_zero, Nat.zero_add] at hrun hemptied
    obtain ⟨released, hback, hreleased, hsame⟩ := hemptied.handBack
    rw [htail] at hback
    simp only [hzero, if_false, hrun, hback, ok_bind]
    generalize hanswer : demolish (queue.items.take n) = answer at hreleased ⊢
    obtain ⟨outcome, destroyed⟩ := answer
    cases outcome with
    | panicked cause => exact ⟨released, rfl, hreleased, hsame.trans hhead⟩
    | returned _ =>
        have hall := eq_of_demolish_returned hanswer
        have hlength : destroyed.length = n := by
          rw [hall, List.length_take]
          omega
        simp only [hlength] at hreleased ⊢
        exact ⟨_, rfl, hreleased.record _, (head_record _ _).trans (hsame.trans hhead)⟩

theorem discardExact [Item α] (h : ring.Holds 0 queue) (count : Nat) :
    ∃ next, ring.discardExact count =
        .ok ((queue.discardExact count).1, (queue.discardExact count).2.1, next) ∧
      next.Holds 0 (queue.discardExact count).2.2 ∧ next.head = ring.head := by
  unfold RingBuffer.discardExact Queue.discardExact
  rw [readable_eq, ok_bind, h.live_eq]
  by_cases hshort : queue.items.length < count
  · simp only [hshort, if_true]
    exact ⟨ring, rfl, h, rfl⟩
  · obtain ⟨next, hdiscard, hholds, hhead⟩ := h.discard count
    simp only [hshort, if_false, hdiscard, ok_bind]
    refine ⟨next, ?_, hholds, hhead⟩
    congr 2
    unfold Queue.discard
    generalize hanswer : demolish (queue.items.take count) = answer
    obtain ⟨outcome, destroyed⟩ := answer
    cases outcome with
    | panicked cause => rfl
    | returned _ =>
        have hlength : destroyed.length = count := by
          rw [eq_of_demolish_returned hanswer, List.length_take]
          omega
        simp [Outcome.map, hlength]

theorem clear [Item α] (h : ring.Holds 0 queue) :
    ∃ next, ring.clear =
        .ok ((queue.discard queue.items.length).1, (queue.discard queue.items.length).2.1, next) ∧
      next.Holds 0 (queue.discard queue.items.length).2.2 ∧ next.head = ring.head := by
  have hall : queue.discard Capacity.wordMax = queue.discard queue.items.length := by
    have hlength := h.length_le
    have hlt := h.capacity_lt
    have hmax : Capacity.wordMax = UInt64.size - 1 := rfl
    unfold Queue.discard
    rw [List.take_of_length_le (by omega), List.take_of_length_le (Nat.le_refl _)]
  rw [← hall]
  exact h.discard Capacity.wordMax

theorem dispose [Item α] (h : ring.Holds 0 queue) : ring.dispose = .ok (demolish queue.items) := by
  obtain ⟨emptied, hrun, -, -, -⟩ := h.destroyRun queue.items.length (by omega)
  rw [List.drop_zero, List.take_of_length_le (Nat.le_refl _)] at hrun
  have hlive : (ring.head - ring.tail).toNat = queue.items.length := h.live_eq
  simp only [RingBuffer.dispose, Cursor.load_relaxed, hlive, hrun, ok_bind]

end RingBuffer.Holds

/-! ## Handing over to code of the caller -/

theorem Queue.drainRun_returned {reaction : Queue.Reaction α α κ} {items : List α}
    {gone done : Nat} {memory memory' : κ} {queue queue' : Queue α}
    (h : queue.drainRun reaction items gone memory = (.returned (), done, memory', queue')) :
    done = gone + items.length := by
  induction items generalizing gone memory queue with
  | nil => cases h; rfl
  | cons item rest ih =>
      unfold Queue.drainRun at h
      split at h
      · rw [ih h, List.length_cons]
        omega
      · cases h

section callbacks

variable {kept : RingBuffer α → τ} {handler : Callback α α κ} {reaction : Queue.Reaction α α κ}
  (hreaction : ∀ gone item memory queue,
    Tracks (fun ring => (ring.tail, kept ring)) gone (handler item memory) queue
      (reaction item memory queue))
  (hfront : ∀ item memory queue, queue.items <+: (reaction item memory queue).2.2.items)
  (hkept : ∀ a b : RingBuffer α, a.head = b.head → kept a = kept b)

include hreaction hfront hkept

/-- While the handler runs the tail stays, so what it inserts comes behind the items that are still
to be handed over. -/
theorem drainRun_tracks (window : Window) (left : Nat) {gone : Nat} (memory : κ)
    {ring : RingBuffer α} {queue : Queue α} (h : ring.Holds gone queue)
    (hstart : window.start = ring.tail) (hwindow : gone + left ≤ window.count)
    (hle : gone + left ≤ queue.items.length) :
    ∃ next done, ring.drainRun handler window left gone memory =
        .ok ((queue.drainRun reaction ((queue.items.drop gone).take left) gone memory).1, done,
          (queue.drainRun reaction ((queue.items.drop gone).take left) gone memory).2.2.1, next) ∧
      (queue.drainRun reaction ((queue.items.drop gone).take left) gone memory).2.1 = done ∧
      next.Holds done
        (queue.drainRun reaction ((queue.items.drop gone).take left) gone memory).2.2.2 ∧
      next.tail = ring.tail ∧ kept next = kept ring := by
  induction left generalizing gone memory ring queue with
  | zero => exact ⟨ring, gone, rfl, rfl, h, rfl, rfl⟩
  | succ left ih =>
      have hlt : gone < queue.items.length := by omega
      have hin : gone < window.count := by omega
      obtain ⟨rest, htake, hrest⟩ := h.take hlt
      obtain ⟨after, hcall, hafter, hcursors⟩ :=
        hreaction (gone + 1) queue.items[gone] memory queue _ hrest
      obtain ⟨htail, hcalled⟩ := Prod.mk.inj hcursors
      have hsame : kept after = kept ring := hcalled.trans (hkept _ _ rfl)
      have hleads := hfront queue.items[gone] memory queue
      rw [List.drop_eq_getElem_cons hlt, List.take_succ_cons]
      unfold RingBuffer.drainRun Queue.drainRun
      simp only [hstart, ensure_of hin, ok_bind, htake, hcall]
      generalize reaction queue.items[gone] memory queue = answer at hafter hleads ⊢
      obtain ⟨signal, memory', queue'⟩ := answer
      cases signal with
      | panic => exact ⟨after, gone + 1, rfl, rfl, hafter, htail, hsame⟩
      | proceed =>
          -- the handler has only appended, so the items that are still to come are the same
          obtain ⟨extra, hextra⟩ := hleads
          have hextra : queue.items ++ extra = queue'.items := hextra
          have hafter : after.Holds (gone + 1) queue' := hafter
          have hlonger := congrArg List.length hextra
          rw [List.length_append] at hlonger
          have hitems : (queue'.items.drop (gone + 1)).take left =
              (queue.items.drop (gone + 1)).take left := by
            rw [← hextra, List.drop_append_of_le_length (by omega),
              List.take_append_of_le_length (by rw [List.length_drop]; omega)]
          obtain ⟨last, done, hrun, hdone, hlast, hstay, hend⟩ :=
            ih memory' hafter (hstart.trans htail.symm) (by omega) (by omega)
          rw [hitems] at hrun hdone hlast
          refine ⟨last, done, ?_, hdone, hlast, hstay.trans htail, hend.trans hsame⟩
          exact hrun

/-- A drain moves the tail past what it has handed over, and leaves the rest to the handler. -/
theorem drain_moves (limit : Nat) (memory : κ) {ring : RingBuffer α} {queue : Queue α}
    (h : ring.Holds 0 queue) :
    ∃ next, ring.drain limit handler memory =
        .ok ((queue.drain limit reaction memory).1, (queue.drain limit reaction memory).2.1,
          next) ∧
      next.Holds 0 (queue.drain limit reaction memory).2.2 ∧ kept next = kept ring ∧
      next.tail = ring.tail +
        UInt64.ofNat (queue.drainRun reaction (queue.items.take limit) 0 memory).2.1 := by
  have htake : queue.items.take limit = queue.items.take (min limit queue.items.length) :=
    List.take_eq_take_min
  simp only [RingBuffer.drain, RingBuffer.consumerWindow_eq, ok_bind, h.live_eq]
  unfold Queue.drain
  rw [htake]
  generalize hn : min limit queue.items.length = n
  by_cases hzero : n = 0
  · subst hzero
    simp only [if_true, List.take_zero, Queue.drainRun, Queue.behead_zero,
      Queue.record_removed_zero]
    exact ⟨ring, rfl, h, rfl, by simp⟩
  · obtain ⟨next, done, hrun, hdone, hnext, htail, hsame⟩ := drainRun_tracks hreaction hfront hkept
      ⟨ring.tail, queue.items.length⟩ n memory h rfl (by simp; omega) (by omega)
    rw [List.drop_zero] at hrun hdone hnext
    obtain ⟨released, hback, hreleased, hhead⟩ := hnext.handBack
    rw [htail] at hback
    have hmoved := RingBuffer.tail_of_publishTail hback
    simp only [hzero, if_false, hrun, hback, ok_bind]
    generalize hanswer : queue.drainRun reaction (queue.items.take n) 0 memory = answer
      at hdone hreleased ⊢
    obtain ⟨outcome, done', memory', queue'⟩ := answer
    cases hdone
    cases outcome with
    | panicked cause => exact ⟨released, rfl, hreleased, (hkept _ _ hhead).trans hsame, hmoved⟩
    | returned _ =>
        have hall : done' = n := by
          rw [Queue.drainRun_returned hanswer, List.length_take]
          omega
        have hcounted := hreleased.record (.removed done')
        subst hall
        exact ⟨_, rfl, hcounted,
          (hkept _ _ ((RingBuffer.head_record _ _).trans hhead)).trans hsame,
          (RingBuffer.tail_record _ _).trans hmoved⟩

theorem drain_tracks (limit : Nat) (memory : κ) (queue : Queue α) :
    Tracks kept 0 (fun ring => ring.drain limit handler memory) queue
      (queue.drain limit reaction memory) := by
  intro ring h
  obtain ⟨next, hrun, hnext, hsame, -⟩ := drain_moves hreaction hfront hkept limit memory h
  exact ⟨next, hrun, hnext, hsame⟩

end callbacks

end RingChannel
