import RingChannel.Proofs.Queue.Basic
import RingChannel.Proofs.Slots

/-!
# A ring holds a queue

The relation between a ring and the queue it stands for. Seen from the tail, the row of slots holds
the items of the queue and is vacant behind them. While a call works through the front of the
window, the first `gone` slots are vacant already, and the items that were there still belong to
the queue until the tail moves past them: the producer's side cannot tell the difference.
-/

namespace RingChannel

variable {α : Type}

namespace RingBuffer

/-- The ring stands for `queue`, and the slots of its first `gone` items are vacant already. -/
structure Holds (ring : RingBuffer α) (gone : Nat) (queue : Queue α) : Prop where
  row : ring.store.Row ring.mask ring.tail fun i => if i < gone then none else queue.items[i]?
  capacity_eq : ring.capacity = queue.capacity
  live_eq : ring.live = queue.items.length
  length_le : queue.items.length ≤ queue.capacity
  gone_le : gone ≤ queue.items.length
  metered_eq : ring.config.metered = queue.metered
  counters_eq : ring.counters = queue.counters

theorem tail_of_publishTail {start : UInt64} {count : Nat} {ring next : RingBuffer α}
    (h : ring.publishTail start count = .ok next) : next.tail = start + UInt64.ofNat count := by
  simp only [publishTail, Cursor.load_relaxed, Cursor.store_release, ok_bind, bind_eq_ok_iff] at h
  rcases h with ⟨_, -, h⟩
  cases h
  rfl

theorem head_eq_tail_add (ring : RingBuffer α) :
    ring.head = ring.tail + UInt64.ofNat ring.live := by
  rw [live, UInt64.ofNat_toNat]
  grind

/-- A new ring holds the empty queue, wherever its cursors start. -/
theorem holds_of_create [Item α] {limit capacity : Nat} {config : Config} {start : UInt64}
    {ring : RingBuffer α} (h : create limit capacity config start = .ok ring) :
    ring.Holds 0 (.empty capacity config.metered) := by
  unfold create at h
  split at h
  · cases h
  · rename_i hvalid
    split at h
    · cases h
    · cases h
      have hvalid : Capacity.isValid capacity = true := by simpa using hvalid
      have hrow := Store.row_empty (α := α) hvalid start
      have hmask := Store.toNat_mask hvalid
      refine ⟨hrow.congr fun i _ => ?_, hmask, ?_, ?_, Nat.le_refl _, rfl, rfl⟩
      · rw [if_neg (Nat.not_lt_zero i)]
        rfl
      · simp [live, Queue.empty]
      · simp [Queue.empty]

namespace Holds

variable {ring : RingBuffer α} {gone : Nat} {queue : Queue α}

theorem mask_eq (h : ring.Holds gone queue) : ring.mask.toNat + 1 = queue.capacity :=
  h.capacity_eq

theorem capacity_valid (h : ring.Holds gone queue) : Capacity.isValid queue.capacity = true := by
  rw [← h.mask_eq]
  exact h.row.valid

theorem capacity_lt (h : ring.Holds gone queue) : queue.capacity < UInt64.size := by
  have hvalid := h.capacity_valid
  simp only [Capacity.isValid, Bool.and_eq_true, decide_eq_true_eq] at hvalid
  exact hvalid.1

theorem mask_congr {other : RingBuffer α} {left : Nat} {next : Queue α}
    (h : ring.Holds gone queue) (hother : other.Holds left next)
    (hcapacity : next.capacity = queue.capacity) : other.mask = ring.mask := by
  apply UInt64.toNat_inj.1
  have hring := h.mask_eq
  have hnext := hother.mask_eq
  omega

theorem head_eq (h : ring.Holds gone queue) :
    ring.head = ring.tail + UInt64.ofNat queue.items.length := by
  rw [← h.live_eq]
  exact head_eq_tail_add ring

theorem live_of_head {ring : RingBuffer α} {items : List α}
    (hhead : ring.head = ring.tail + UInt64.ofNat items.length) (hlt : items.length < UInt64.size) :
    ring.live = items.length := by
  have hsub : ring.head - ring.tail = UInt64.ofNat items.length := by
    rw [hhead]
    grind
  rw [live, hsub, UInt64.toNat_ofNat', Nat.mod_eq_of_lt hlt]

theorem free_eq (h : ring.Holds gone queue) : ring.free = .ok queue.free := by
  rw [free_eq_subtract, h.capacity_eq, h.live_eq, subtract_of_le h.length_le, Queue.free]

theorem length_eq (h : ring.Holds gone queue) : ring.length = queue.items.length := by
  rw [RingBuffer.length, h.live_eq, h.capacity_eq, Nat.min_eq_left h.length_le]

theorem metrics_eq (h : ring.Holds gone queue) : ring.metrics = queue.metrics := by
  rw [RingBuffer.metrics, Queue.metrics, h.metered_eq, h.counters_eq]

theorem record (h : ring.Holds gone queue) (tally : Tally) :
    (ring.record tally).Holds gone (queue.record tally) where
  row := by simpa using h.row
  capacity_eq := by simpa using h.capacity_eq
  live_eq := by simpa using h.live_eq
  length_le := by simpa using h.length_le
  gone_le := by simpa using h.gone_le
  metered_eq := by simpa using h.metered_eq
  counters_eq := by
    rw [counters_record, h.metered_eq, h.counters_eq, Queue.record]
    split <;> rfl

/-! ## The steps that move items

Each operation of a ring is made of these: write behind the head and publish, take from the front,
hand the taken slots back. -/

/-- Items that fit are written behind the head and become the back of the queue. -/
theorem write (h : ring.Holds gone queue) (items : List α) (hfit : items.length ≤ queue.free) :
    ∃ filled written, ring.fill ring.head items = .ok filled ∧
      filled.publishHead ring.head items.length = .ok written ∧
      written.Holds gone (queue.append items) ∧ written.tail = ring.tail := by
  have hmask := h.mask_eq
  have hlength := h.length_le
  have hlt := h.capacity_lt
  have hgone := h.gone_le
  unfold Queue.free at hfit
  obtain ⟨store, hfill, hrow⟩ := h.row.fill items queue.items.length (by omega) (by
    intro j _
    rw [if_neg (by omega), List.getElem?_eq_none (by omega)])
  rw [← h.head_eq] at hfill
  let filled : RingBuffer α := { ring with store := store }
  let moved : RingBuffer α := { filled with head := ring.head + UInt64.ofNat items.length }
  have hmoved : moved.Holds gone { queue with items := queue.items ++ items } := by
    refine ⟨hrow.congr fun j _ => ?_, h.capacity_eq, live_of_head ?_ ?_, ?_, ?_, h.metered_eq,
      h.counters_eq⟩
    · -- an offset is in the run just written, in the window before it, or behind both
      by_cases hin : queue.items.length ≤ j ∧ j < queue.items.length + items.length
      · rw [if_pos hin, if_neg (by omega), List.getElem?_append_right hin.1]
      · rw [if_neg hin]
        by_cases hj : j < queue.items.length
        · rw [List.getElem?_append_left hj]
        · rw [List.getElem?_eq_none (by omega), List.getElem?_eq_none (by simp; omega)]
    · change ring.head + _ = ring.tail + _
      rw [h.head_eq, List.length_append, UInt64.ofNat_add, UInt64.add_assoc]
    · simp; omega
    · simp; omega
    · simp; omega
  refine ⟨filled, moved.record (.inserted items.length), ?_, ?_, hmoved.record _,
    by simp [moved, filled]⟩
  · simp only [fill, hfill, ok_bind, filled]
  · have hlive : (ring.head + UInt64.ofNat items.length - filled.tail).toNat ≤ filled.capacity := by
      have hle := hmoved.length_le
      rw [← hmoved.live_eq, ← hmoved.capacity_eq] at hle
      exact hle
    simp only [publishHead, Cursor.load_relaxed, Cursor.store_release, ensure_of hlive, ok_bind]
    rfl

/-- The item behind the vacant front is taken out. -/
theorem take (h : ring.Holds gone queue) (hlt : gone < queue.items.length) :
    ∃ rest, ring.store.take (ring.slot (ring.tail + UInt64.ofNat gone)) =
        .ok (queue.items[gone], rest) ∧
      ({ ring with store := rest } : RingBuffer α).Holds (gone + 1) queue := by
  have hmask := h.mask_eq
  have hlength := h.length_le
  have hfront : (if gone < gone then none else queue.items[gone]?) = some queue.items[gone] := by
    rw [if_neg (by omega), List.getElem?_eq_getElem hlt]
  obtain ⟨rest, htake, hrow⟩ := h.row.take gone (by omega) hfront
  refine ⟨rest, htake, hrow.congr fun j _ => ?_, h.capacity_eq, h.live_eq, h.length_le, hlt,
    h.metered_eq, h.counters_eq⟩
  by_cases hj : j = gone
  · rw [if_pos hj, if_pos (by omega)]
  · by_cases hbefore : j < gone
    · rw [if_neg hj, if_pos hbefore, if_pos (by omega)]
    · rw [if_neg hj, if_neg hbefore, if_neg (by omega)]

/-- The vacant front is handed back, and its items leave the queue. -/
theorem handBack (h : ring.Holds gone queue) :
    ∃ released, ring.publishTail ring.tail gone = .ok released ∧
      released.Holds 0 (queue.behead gone) ∧ released.head = ring.head := by
  have hmask := h.mask_eq
  have hlength := h.length_le
  have hlt := h.capacity_lt
  have hgone := h.gone_le
  refine ⟨{ ring with tail := ring.tail + UInt64.ofNat gone }, ?_, ?_, rfl⟩
  · have hwindow : gone ≤ (ring.head - ring.tail).toNat := by
      have hlive := h.live_eq
      unfold live at hlive
      omega
    simp only [publishTail, Cursor.load_relaxed, Cursor.store_release, ensure_of hwindow, ok_bind]
  · refine ⟨(h.row.shift gone (by omega)).congr fun i hi => ?_, h.capacity_eq,
      live_of_head ?_ ?_, ?_, Nat.zero_le _, h.metered_eq, h.counters_eq⟩
    · rw [if_neg (Nat.not_lt_zero i), Queue.items_behead, List.getElem?_drop]
      split
      · rw [if_neg (by omega), Nat.add_comm]
      · -- the slots left behind are the vacant front, and the queue does not reach them
        rw [if_pos (by omega), List.getElem?_eq_none (by omega)]
    · change ring.head = ring.tail + UInt64.ofNat gone + UInt64.ofNat (queue.items.drop gone).length
      rw [h.head_eq, UInt64.add_assoc, ← UInt64.ofNat_add, List.length_drop]
      congr 2
      omega
    · simp; omega
    · simp; omega

theorem get?_unread (h : ring.Holds 0 queue) {i : Nat} (hi : i < queue.items.length) :
    ring.store.get? (ring.slot (ring.tail + UInt64.ofNat i)) = some queue.items[i] := by
  have hmask := h.mask_eq
  have hlength := h.length_le
  rw [slot, h.row.get?_slot i (by omega), if_neg (Nat.not_lt_zero i), List.getElem?_eq_getElem hi]

theorem read (h : ring.Holds 0 queue) {i : Nat} (hi : i < queue.items.length) :
    ring.store.read (ring.slot (ring.tail + UInt64.ofNat i)) = .ok queue.items[i] :=
  Store.read_of_occupied (h.row.slot_lt_size i) (h.get?_unread hi)

theorem contents_eq (h : ring.Holds 0 queue) : ring.contents = queue.items := by
  have hcells : (List.range queue.items.length).map
      (fun i => ring.store.get? (ring.slot (ring.tail + UInt64.ofNat i))) =
        queue.items.map some := by
    apply List.ext_getElem
    · simp
    · intro i hi _
      have hi : i < queue.items.length := by simpa using hi
      rw [List.getElem_map, List.getElem_range, h.get?_unread hi, List.getElem_map]
  have hmap := congrArg (List.filterMap id) hcells
  rw [List.filterMap_map, List.filterMap_map] at hmap
  rw [contents, h.live_eq]
  exact hmap.trans List.filterMap_some

/-- A ring whose tail and capacity stay the same keeps in their slots the items that it keeps. -/
theorem get?_of_prefix {next : RingBuffer α} {later : Queue α} (h : ring.Holds 0 queue)
    (hnext : next.Holds 0 later) (htail : next.tail = ring.tail)
    (hcapacity : later.capacity = queue.capacity) (hitems : queue.items <+: later.items)
    {index : Nat} {item : α} (hitem : ring.store.get? index = some item) :
    next.store.get? index = some item := by
  have hmask : next.mask = ring.mask := h.mask_congr hnext hcapacity
  have hin : index ≤ ring.mask.toNat := by
    apply Nat.le_of_not_lt
    intro hout
    rw [h.row.get?_outside index hout] at hitem
    cases hitem
  rcases Store.exists_slot_eq h.row.valid ring.tail hin with ⟨i, hi, rfl⟩
  have hbefore := h.row.get?_slot i hi
  have hafter := hnext.row.get?_slot i (by rw [hmask]; exact hi)
  rw [hmask, htail] at hafter
  rw [if_neg (Nat.not_lt_zero i), hitem] at hbefore
  rcases hitems with ⟨more, hmore⟩
  have hi : i < queue.items.length := (List.getElem?_eq_some_iff.1 hbefore.symm).1
  rw [hafter, if_neg (Nat.not_lt_zero i), ← hmore, List.getElem?_append_left hi]
  exact hbefore.symm

end Holds

end RingBuffer

end RingChannel
