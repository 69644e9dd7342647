import RingChannel.RingBuffer.Basic

/-!
# Rows of slots

Seen from a cursor, the slots of a store form a row: offset `i` is the slot of the cursor `i` words
on. A capacity divides the number of words, so the row visits every slot once, whether or not the
cursors or the slot indices wrap on the way.
-/

namespace RingChannel.Store

variable {α : Type}

/-- The slot of an offset is the sum reduced by the capacity; the wrap of the word cancels out. -/
theorem slot_add {mask : UInt64} (hvalid : Capacity.isValid (mask.toNat + 1) = true)
    (start : UInt64) (i : Nat) :
    slot mask (start + UInt64.ofNat i) = (start.toNat + i) % (mask.toNat + 1) := by
  obtain ⟨k, hk, hpow⟩ := Capacity.isValid_iff.1 hvalid
  rw [Nat.one_shiftLeft] at hpow
  have hmask : mask.toNat = 2 ^ k - 1 := by omega
  have hdvd : 2 ^ k ∣ 2 ^ 64 := Nat.pow_dvd_pow 2 (by omega)
  rw [slot, UInt64.toNat_and, hpow, hmask, Nat.and_two_pow_sub_one_eq_mod, UInt64.toNat_add,
    UInt64.toNat_ofNat', Nat.mod_mod_of_dvd _ hdvd, Nat.add_mod, Nat.mod_mod_of_dvd _ hdvd,
    ← Nat.add_mod]

theorem slot_lt {mask : UInt64} (hvalid : Capacity.isValid (mask.toNat + 1) = true)
    (start : UInt64) (i : Nat) : slot mask (start + UInt64.ofNat i) < mask.toNat + 1 := by
  rw [slot_add hvalid]
  exact Nat.mod_lt _ (Nat.succ_pos _)

theorem slot_inj {mask : UInt64} (hvalid : Capacity.isValid (mask.toNat + 1) = true)
    {start : UInt64} {i j : Nat} (hi : i ≤ mask.toNat) (hj : j ≤ mask.toNat) :
    slot mask (start + UInt64.ofNat i) = slot mask (start + UInt64.ofNat j) ↔ i = j := by
  refine ⟨fun h => ?_, fun h => h ▸ rfl⟩
  rw [slot_add hvalid, slot_add hvalid] at h
  have hmod := Nat.sub_mod_eq_zero_of_mod_eq h
  have hmod' := Nat.sub_mod_eq_zero_of_mod_eq h.symm
  rw [Nat.mod_eq_of_lt (by omega)] at hmod hmod'
  omega

theorem exists_slot_eq {mask : UInt64} (hvalid : Capacity.isValid (mask.toNat + 1) = true)
    (start : UInt64) {index : Nat} (hindex : index ≤ mask.toNat) :
    ∃ i ≤ mask.toNat, slot mask (start + UInt64.ofNat i) = index := by
  let size := mask.toNat + 1
  have hrest : start.toNat % size < size := Nat.mod_lt _ (Nat.succ_pos _)
  refine ⟨(index + size - start.toNat % size) % size, ?_, ?_⟩
  · exact Nat.le_of_lt_succ (Nat.mod_lt _ (Nat.succ_pos _))
  · rw [slot_add hvalid]
    change (start.toNat + (index + size - start.toNat % size) % size) % size = index
    rw [Nat.add_mod_mod, ← Nat.mod_add_mod]
    have hsum : start.toNat % size + (index + size - start.toNat % size) = index + size := by
      omega
    rw [hsum, Nat.add_mod_right, Nat.mod_eq_of_lt (by omega)]

/-- Seen from the cursor `start` on, the slots hold `cells`. -/
structure Row (store : Store α) (mask start : UInt64) (cells : Nat → Option α) : Prop where
  valid : Capacity.isValid (mask.toNat + 1) = true
  size_eq : store.size = mask.toNat + 1
  get?_slot : ∀ i ≤ mask.toNat, store.get? (slot mask (start + UInt64.ofNat i)) = cells i
  get?_outside : ∀ index, mask.toNat < index → store.get? index = none

namespace Row

variable {store : Store α} {mask start : UInt64} {cells : Nat → Option α}

theorem slot_lt_size (row : store.Row mask start cells) (i : Nat) :
    slot mask (start + UInt64.ofNat i) < store.size := by
  rw [row.size_eq]
  exact slot_lt row.valid start i

theorem congr (row : store.Row mask start cells) {others : Nat → Option α}
    (h : ∀ i ≤ mask.toNat, cells i = others i) : store.Row mask start others where
  valid := row.valid
  size_eq := row.size_eq
  get?_slot := fun i hi => (row.get?_slot i hi).trans (h i hi)
  get?_outside := row.get?_outside

theorem change (row : store.Row mask start cells) {other : Store α} {i : Nat} {cell : Option α}
    (hi : i ≤ mask.toNat) (hsize : other.size = store.size)
    (hget : ∀ index, other.get? index =
      if index = slot mask (start + UInt64.ofNat i) then cell else store.get? index) :
    other.Row mask start (fun j => if j = i then cell else cells j) where
  valid := row.valid
  size_eq := hsize.trans row.size_eq
  get?_slot := by
    intro j hj
    rw [hget, row.get?_slot j hj]
    simp only [slot_inj row.valid hj hi]
  get?_outside := by
    intro index hindex
    have hlt := slot_lt row.valid start i
    rw [hget, if_neg (by omega), row.get?_outside index hindex]

theorem put (row : store.Row mask start cells) (i : Nat) (item : α) (hi : i ≤ mask.toNat)
    (hvacant : cells i = none) :
    ∃ written, store.put (slot mask (start + UInt64.ofNat i)) item = .ok written ∧
      written.Row mask start (fun j => if j = i then some item else cells j) := by
  obtain ⟨written, hput, hsize, hget⟩ :=
    put_of_vacant item (row.slot_lt_size i) ((row.get?_slot i hi).trans hvacant)
  exact ⟨written, hput, row.change hi hsize hget⟩

theorem take (row : store.Row mask start cells) (i : Nat) {item : α} (hi : i ≤ mask.toNat)
    (hoccupied : cells i = some item) :
    ∃ rest, store.take (slot mask (start + UInt64.ofNat i)) = .ok (item, rest) ∧
      rest.Row mask start (fun j => if j = i then none else cells j) := by
  obtain ⟨rest, htake, hsize, hget⟩ :=
    take_of_occupied (row.slot_lt_size i) ((row.get?_slot i hi).trans hoccupied)
  exact ⟨rest, htake, row.change hi hsize hget⟩

/-- The same slots seen from a cursor further on. The offsets that are left behind come last. -/
theorem shift (row : store.Row mask start cells) (n : Nat) (hn : n ≤ mask.toNat + 1) :
    store.Row mask (start + UInt64.ofNat n)
      (fun i =>
        if i + n ≤ mask.toNat then cells (i + n) else cells (i + n - (mask.toNat + 1))) where
  valid := row.valid
  size_eq := row.size_eq
  get?_slot := by
    intro i hi
    have hslot : slot mask (start + UInt64.ofNat n + UInt64.ofNat i) =
        (start.toNat + (i + n)) % (mask.toNat + 1) := by
      rw [UInt64.add_assoc, ← UInt64.ofNat_add, slot_add row.valid, Nat.add_comm n i]
    split
    · rename_i hle
      rw [hslot, ← slot_add row.valid, row.get?_slot _ hle]
    · rename_i hgt
      have hback : start.toNat + (i + n) =
          start.toNat + (i + n - (mask.toNat + 1)) + (mask.toNat + 1) := by omega
      rw [hslot, hback, Nat.add_mod_right, ← slot_add row.valid, row.get?_slot _ (by omega)]
  get?_outside := row.get?_outside

/-- A row of vacant slots takes items at consecutive offsets. -/
theorem fill (row : store.Row mask start cells) (items : List α) (i : Nat)
    (hfit : i + items.length ≤ mask.toNat + 1)
    (hvacant : ∀ j < items.length, cells (i + j) = none) :
    ∃ written, store.fill mask (start + UInt64.ofNat i) items = .ok written ∧
      written.Row mask start
        (fun j => if i ≤ j ∧ j < i + items.length then items[j - i]? else cells j) := by
  induction items generalizing store cells i with
  | nil => exact ⟨store, rfl, row.congr fun j _ => by rw [if_neg (by rw [List.length_nil]; omega)]⟩
  | cons item rest ih =>
      rw [List.length_cons] at hfit hvacant
      have hfirst : cells i = none := hvacant 0 (by omega)
      obtain ⟨first, hput, hrow⟩ := row.put i item (by omega) hfirst
      obtain ⟨written, hfill, hrow⟩ := ih hrow (i + 1) (by omega) (by
        intro j hj
        rw [if_neg (by omega), Nat.add_right_comm]
        exact hvacant (j + 1) (by omega))
      refine ⟨written, ?_, hrow.congr fun j _ => ?_⟩
      · rw [UInt64.ofNat_add, ← UInt64.add_assoc] at hfill
        simp only [Store.fill, hput, ok_bind]
        exact hfill
      · rw [List.length_cons]
        by_cases hj : j = i
        · subst hj
          rw [if_neg (by omega), if_pos rfl, if_pos (by omega), Nat.sub_self,
            List.getElem?_cons_zero]
        · by_cases hin : i + 1 ≤ j ∧ j < i + 1 + rest.length
          · rw [if_pos hin, if_pos (by omega)]
            rw [show j - i = j - (i + 1) + 1 from by omega, List.getElem?_cons_succ]
          · rw [if_neg hin, if_neg hj, if_neg (by omega)]

end Row

theorem toNat_mask {capacity : Nat} (hvalid : Capacity.isValid capacity = true) :
    (UInt64.ofNat (capacity - 1)).toNat + 1 = capacity := by
  obtain ⟨k, hk, hpow⟩ := Capacity.isValid_iff.1 hvalid
  rw [Nat.one_shiftLeft] at hpow
  have hpos : 0 < capacity := hpow ▸ Nat.two_pow_pos k
  have hword : capacity < 2 ^ 64 := hpow ▸ Nat.pow_lt_pow_right (by omega) hk
  rw [UInt64.toNat_ofNat', Nat.mod_eq_of_lt (by omega)]
  omega

theorem row_empty {capacity : Nat} (hvalid : Capacity.isValid capacity = true) (start : UInt64) :
    (empty capacity : Store α).Row (UInt64.ofNat (capacity - 1)) start (fun _ => none) := by
  have hmask := toNat_mask hvalid
  refine ⟨?_, ?_, fun i _ => get?_empty _ _, fun i _ => get?_empty _ _⟩
  · rw [hmask]
    exact hvalid
  · exact hmask.symm

end RingChannel.Store
