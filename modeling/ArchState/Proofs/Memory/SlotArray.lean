import Mathlib.Data.Set.Card
import ArchState.Memory.BlockTable

/-! # Block tables as arrays of slots

A table of blocks stands for an array with one slot for each word. An update replaces one slot of
the array, whichever block the slot lies in and whether that block was allocated before. Only the
number of allocated blocks tells a slot that was emptied from one that nothing was ever put into.
-/
namespace ArchState.BlockTable
variable {α β : Type} {t source : BlockTable α} {i b : Nat}

theorem eq_of_getElem?_blocks (h : ∀ b : Nat, t.blocks[b]? = source.blocks[b]?) : t = source := by
  obtain ⟨blocks⟩ := t
  exact congrArg mk (Array.ext_getElem? h)

/-- The contents of all slots, from the first one on. -/
def flat (t : BlockTable α) : Array (Option α) :=
  Array.ofFn fun i : Fin t.capacity => t.slot i

@[simp] theorem size_flat (t : BlockTable α) : t.flat.size = t.capacity := Array.size_ofFn

theorem getElem?_flat (t : BlockTable α) (i : Nat) :
    t.flat[i]? = if i < t.capacity then some (t.slot i) else none := by
  simp [flat, Array.getElem?_ofFn]

/-- Past the table a slot reads as an empty one. -/
@[simp] theorem join_getElem?_flat (t : BlockTable α) (i : Nat) : t.flat[i]?.join = t.slot i := by
  rw [getElem?_flat]
  by_cases h : i < t.capacity
  · rw [if_pos h]
    rfl
  · rw [if_neg h, slot_eq_none (Nat.le_of_not_lt h)]
    rfl

@[simp] theorem capacity_empty (n : Nat) :
    (empty n : BlockTable α).capacity = n * blockWords := by
  rw [capacity, length_empty]

@[simp] theorem capacity_put (t : BlockTable α) (i : Nat) (content : Option α) :
    (t.put i content).capacity = t.capacity := by
  rw [capacity, capacity, length_put]

theorem capacity_eq_iff : source.capacity = t.capacity ↔ source.length = t.length :=
  Nat.mul_left_inj (by decide)

theorem flat_empty (n : Nat) :
    (empty n : BlockTable α).flat = Array.replicate (n * blockWords) none := by
  apply Array.ext_getElem?
  intro i
  simp [getElem?_flat, Array.getElem?_replicate]

theorem put_of_le (h : t.capacity ≤ i) (content : Option α) : t.put i content = t := by
  have hsize : t.blocks.size ≤ i / blockWords := (Nat.le_div_iff_mul_le (by decide)).mpr h
  apply eq_of_getElem?_blocks
  intro b
  rw [put, Array.getElem?_modify]
  by_cases hb : i / blockWords = b
  · simp [← hb, hsize]
  · rw [if_neg hb]

/-- An update of a slot is an update of its place in the array, also at the border of a block. -/
theorem flat_put (t : BlockTable α) (i : Nat) (content : Option α) :
    (t.put i content).flat = t.flat.setIfInBounds i content := by
  by_cases hi : i < t.capacity
  · apply Array.ext_getElem?
    intro j
    rw [Array.getElem?_setIfInBounds, size_flat, getElem?_flat, getElem?_flat, capacity_put,
      slot_put t hi]
    by_cases hij : i = j
    · subst hij
      simp [hi]
    · simp [hij]
  · have hle := Nat.le_of_not_lt hi
    rw [put_of_le hle, Array.setIfInBounds_eq_of_size_le (t.size_flat.trans_le hle)]

theorem update_of_lt (h : i < t.capacity) (f : Option α → Option α × β) :
    t.update i f = some ((f (t.slot i)).2, t.put i (f (t.slot i)).1) := by
  rw [update, if_pos h]

theorem update_of_le (h : t.capacity ≤ i) (f : Option α → Option α × β) :
    t.update i f = none := by
  rw [update, if_neg (Nat.not_lt.mpr h)]

theorem write_eq (t : BlockTable α) (i : Nat) (value : α) :
    t.write i value = (t.slot i, t.put i (some value)) := by
  rw [write]
  by_cases h : i < t.capacity
  · rw [update_of_lt h]
  · have hle := Nat.le_of_not_lt h
    rw [update_of_le hle, slot_eq_none hle, put_of_le hle]

def allocatedAt (t : BlockTable α) (b : Nat) : Bool := t.blocks[b]?.join.isSome

@[simp] theorem allocatedAt_empty (n b : Nat) : (empty n : BlockTable α).allocatedAt b = false := by
  simp only [allocatedAt, empty, Array.getElem?_replicate]
  split <;> rfl

theorem lt_length_of_allocatedAt (h : t.allocatedAt b = true) : b < t.length := by
  by_contra hle
  rw [allocatedAt, Array.getElem?_eq_none (Nat.le_of_not_lt hle)] at h
  cases h

/-- An update allocates the block of its slot, whatever it puts there. -/
theorem allocatedAt_put_iff (t : BlockTable α) (i : Nat) (content : Option α) (b : Nat) :
    (t.put i content).allocatedAt b = true ↔
      (b < t.length ∧ i / blockWords = b) ∨ t.allocatedAt b = true := by
  simp only [allocatedAt, put, Array.getElem?_modify]
  by_cases hb : i / blockWords = b
  · by_cases hlt : b < t.blocks.size
    · simp [hb, hlt, length]
    · simp [hb, hlt, length]
  · simp [hb]

theorem allocated_eq_countP (t : BlockTable α) :
    t.allocated = (List.range t.length).countP t.allocatedAt := by
  have hblocks : t.blocks.toList = (List.range t.length).map fun b => t.blocks[b]?.join := by
    apply List.ext_getElem
    · simp [length]
    · intro b hb _
      simp [Array.getElem?_eq_getElem (Array.length_toList ▸ hb)]
  rw [allocated, ← Array.countP_toList, hblocks, List.countP_map]
  rfl

theorem ncard_allocatedAt (t : BlockTable α) :
    {b | t.allocatedAt b = true}.ncard = t.allocated := by
  have hset : {b | t.allocatedAt b = true} =
      (((List.range t.length).filter t.allocatedAt).toFinset : Set Nat) := by
    ext b
    simpa using fun h => lt_length_of_allocatedAt h
  rw [hset, Set.ncard_coe_finset, List.toFinset_card_of_nodup (List.nodup_range.filter _),
    ← List.countP_eq_length_filter, allocated_eq_countP]

/-- The table after it has taken over the first blocks of another one. A block that is not
allocated there takes the place of one that is allocated here. -/
def takeBlocks (t source : BlockTable α) : Nat → BlockTable α
  | 0 => t
  | count + 1 =>
    ⟨(t.takeBlocks source count).blocks.setIfInBounds count source.blocks[count]?.join⟩

theorem length_takeBlocks (t source : BlockTable α) (count : Nat) :
    (t.takeBlocks source count).length = t.length := by
  induction count with
  | zero => rfl
  | succ count ih => rw [← ih, length, length, takeBlocks, Array.size_setIfInBounds]

theorem getElem?_takeBlocks (t source : BlockTable α) (count : Nat) (h : b < t.length) :
    (t.takeBlocks source count).blocks[b]? =
      if b < count then some source.blocks[b]?.join else t.blocks[b]? := by
  induction count with
  | zero => simp [takeBlocks]
  | succ count ih =>
    have hsize : b < (t.takeBlocks source count).blocks.size := by
      rw [← length, length_takeBlocks]
      exact h
    rw [takeBlocks, Array.getElem?_setIfInBounds, ih]
    rcases Nat.lt_trichotomy b count with hlt | rfl | hgt
    · simp [hlt, Nat.lt_succ_of_lt hlt, Nat.ne_of_gt hlt]
    · simp [hsize]
    · simp [Nat.ne_of_lt hgt, Nat.not_lt.mpr (Nat.le_of_lt hgt), Nat.not_lt.mpr hgt]

/-- A table that takes over all blocks of one of the same length becomes this table. -/
theorem takeBlocks_of_length (h : t.length = source.length) :
    t.takeBlocks source t.length = source := by
  apply eq_of_getElem?_blocks
  intro b
  by_cases hb : b < t.length
  · have hsource : b < source.blocks.size := lt_of_lt_of_eq hb h
    simp [getElem?_takeBlocks t source _ hb, hb, hsource]
  · have hle := Nat.le_of_not_lt hb
    rw [Array.getElem?_eq_none ((t.length_takeBlocks source t.length).trans_le hle),
      Array.getElem?_eq_none (h.symm.trans_le hle)]

end ArchState.BlockTable
