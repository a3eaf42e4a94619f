import ArchState.Layout.Segments

/-! # Block tables

A table has a fixed number of blocks of 1024 slots. A slot holds a value or, when nothing
was written to it, none; a block is allocated when one of its slots is first updated. Seen
from outside, a table is the function `slot` from places to contents.
-/
namespace ArchState

abbrev Block (α : Type) := Vector (Option α) blockWords

structure BlockTable (α : Type) where
  blocks : Array (Option (Block α))

namespace BlockTable
variable {α β : Type}

def empty (length : Nat) : BlockTable α := ⟨Array.replicate length none⟩

def length (t : BlockTable α) : Nat := t.blocks.size

def isEmpty (t : BlockTable α) : Bool := t.blocks.isEmpty

def capacity (t : BlockTable α) : Nat := t.length * blockWords

/-- The number of blocks that were updated. -/
def allocated (t : BlockTable α) : Nat := t.blocks.countP Option.isSome

theorem mod_lt (i : Nat) : i % blockWords < blockWords := Nat.mod_lt _ (by decide)

/-- The content of a place of a block, which is nothing while it is not allocated. -/
def blockSlot (b : Option (Block α)) (i : Nat) : Option α :=
  match b with
  | some slots =>
    have h := mod_lt i
    slots[i % blockWords]
  | none => none

def slot (t : BlockTable α) (i : Nat) : Option α :=
  match t.blocks[i / blockWords]? with
  | some b => blockSlot b i
  | none => none

def blockPut (b : Option (Block α)) (i : Nat) (content : Option α) : Block α :=
  (b.getD (Vector.replicate blockWords none)).set (i % blockWords) content (mod_lt i)

/-- The table with slot `i` replaced; past the table nothing changes. -/
def put (t : BlockTable α) (i : Nat) (content : Option α) : BlockTable α :=
  ⟨t.blocks.modify (i / blockWords) fun b => some (blockPut b i content)⟩

/-- Replaces slot `i` by what `f` makes of it and answers what `f` answers. Past the table
`f` is not used. -/
def update (t : BlockTable α) (i : Nat) (f : Option α → Option α × β) :
    Option (β × BlockTable α) :=
  if i < t.capacity then
    let (content, answer) := f (t.slot i)
    some (answer, t.put i content)
  else none

def write (t : BlockTable α) (i : Nat) (value : α) : Option α × BlockTable α :=
  match t.update i fun old => (some value, old) with
  | some step => step
  | none => (none, t)

def clear (t : BlockTable α) : BlockTable α := empty t.length

def copyFrom? (t source : BlockTable α) : Option (BlockTable α) :=
  if source.length = t.length then some source else none

def debug (t : BlockTable α) : String :=
  "BlockTable \x7b blocks: " ++ toString t.length ++ ", .. \x7d"

@[simp] theorem length_empty (n : Nat) : (empty n : BlockTable α).length = n := by
  simp [empty, length]

@[simp] theorem length_put (t : BlockTable α) (i : Nat) (content : Option α) :
    (t.put i content).length = t.length := by simp [put, length]

@[simp] theorem slot_empty (n i : Nat) : (empty n : BlockTable α).slot i = none := by
  simp only [slot, empty, Array.getElem?_replicate]
  split
  · rename_i b h
    split at h
    · cases h; rfl
    · cases h
  · rfl

theorem slot_eq_none {t : BlockTable α} {i : Nat} (h : t.capacity ≤ i) : t.slot i = none := by
  have : t.blocks.size ≤ i / blockWords := by
    rw [Nat.le_div_iff_mul_le (by decide)]
    exact h
  simp [slot, Array.getElem?_eq_none this]

theorem blockSlot_blockPut (b : Option (Block α)) (i j : Nat) (content : Option α) :
    blockSlot (some (blockPut b i content)) j =
      if i % blockWords = j % blockWords then content else blockSlot b j := by
  simp only [blockSlot, blockPut, Vector.getElem_set]
  split
  · rfl
  · cases b <;> simp

theorem slot_put (t : BlockTable α) {i : Nat} (h : i < t.capacity) (content : Option α)
    (j : Nat) : (t.put i content).slot j = if i = j then content else t.slot j := by
  have hi : i / blockWords < t.blocks.size := by
    rw [Nat.div_lt_iff_lt_mul (by decide)]
    exact h
  simp only [slot, put, Array.getElem?_modify]
  by_cases hq : i / blockWords = j / blockWords
  · rw [if_pos hq, ← hq, Array.getElem?_eq_getElem hi]
    simp only [Option.map_some, blockSlot_blockPut]
    have := Nat.div_add_mod i blockWords
    have := Nat.div_add_mod j blockWords
    have hij : i % blockWords = j % blockWords ↔ i = j := by
      constructor
      · intro hm
        rw [← Nat.div_add_mod i blockWords, hq, hm, Nat.div_add_mod]
      · rintro rfl
        rfl
    simp only [hij]
  · rw [if_neg hq, if_neg (by rintro rfl; exact hq rfl)]

end BlockTable
end ArchState
