import RingChannel.Fault

/-!
# Blocks

A batch of items to write and a buffer to read into are blocks: a length and an entry for each index
below it. A block of unit items can be as long as a word allows, so entries are a function of the
index and nothing is laid out. Access by range is checked against the length.
-/

namespace RingChannel

/-- Finitely many entries, known by their number and by index. -/
structure Block (α : Type) where
  size : Nat
  entry : Fin size → α

namespace Block

variable {α : Type}

def ofArray (items : Array α) : Block α :=
  ⟨items.size, fun i => items[i]⟩

def replicate (size : Nat) (item : α) : Block α :=
  ⟨size, fun _ => item⟩

def toList (block : Block α) : List α :=
  List.ofFn block.entry

@[simp] theorem length_toList (block : Block α) : block.toList.length = block.size := by
  simp [toList]

theorem toList_ofArray (items : Array α) : (ofArray items).toList = items.toList := by
  apply List.ext_getElem <;> simp [toList, ofArray]

theorem toList_replicate (size : Nat) (item : α) :
    (replicate size item).toList = List.replicate size item := by
  apply List.ext_getElem <;> simp [toList, replicate]

def slice (block : Block α) (start count : Nat) : Checked (List α) :=
  if h : start + count ≤ block.size then
    .ok (List.ofFn fun i : Fin count => block.entry ⟨start + i, by omega⟩)
  else .error (.outOfRange (start + count) block.size)

theorem slice_of_le {block : Block α} {start count : Nat} (h : start + count ≤ block.size) :
    block.slice start count = .ok ((block.toList.drop start).take count) := by
  simp only [slice, h, dif_pos, Except.ok.injEq]
  apply List.ext_getElem
  · simp; omega
  · intro i _ _
    simp [toList]

/-- Put `items` over the entries from `start` on. -/
def overwrite (block : Block α) (start : Nat) (items : List α) : Checked (Block α) :=
  if start + items.length ≤ block.size then
    let written := items.toArray
    .ok ⟨block.size, fun i =>
      if h : start ≤ i ∧ i - start < written.size then written[i - start] else block.entry i⟩
  else .error (.outOfRange (start + items.length) block.size)

theorem size_of_overwrite {block written : Block α} {start : Nat} {items : List α}
    (h : block.overwrite start items = .ok written) : written.size = block.size := by
  unfold overwrite at h
  split at h
  · cases h; rfl
  · cases h

theorem toList_of_overwrite {block written : Block α} {start : Nat} {items : List α}
    (h : block.overwrite start items = .ok written) :
    written.toList =
      block.toList.take start ++ items ++ block.toList.drop (start + items.length) := by
  unfold overwrite at h
  split at h
  · rename_i hfit
    cases h
    apply List.ext_getElem
    · simp; omega
    · intro i hi _
      have hi : i < block.size := by simpa using hi
      by_cases hbefore : i < start
      · have houtside : ¬ start ≤ i := by omega
        rw [List.getElem_append_left (by simp; omega), List.getElem_append_left (by simp; omega)]
        simp [toList, houtside]
      · by_cases hinside : i - start < items.length
        · have hmin : min start block.size = start := by omega
          rw [List.getElem_append_left (by simp; omega), List.getElem_append_right (by simp; omega)]
          have hle : start ≤ i := by omega
          simp [toList, hle, hinside, hmin]
        · rw [List.getElem_append_right (by simp; omega)]
          have hindex : start + items.length + (i - (min start block.size + items.length)) = i := by
            omega
          simp [toList, hinside, hindex]
  · cases h

end Block

end RingChannel
