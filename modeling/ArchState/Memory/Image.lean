import ArchState.Memory.BlockTable
import ArchState.Statement

/-! # Memory images

An image holds the contents of the four segments: statements in the text segment and words
in the others. The word of a statement is its encoding.
-/
namespace ArchState

structure Image where
  text : BlockTable Statement
  data : BlockTable UInt32
  stack : BlockTable UInt32
  mmio : BlockTable UInt32

namespace Image

def length (im : Image) : Segment → Nat
  | .text => im.text.length
  | .data => im.data.length
  | .stack => im.stack.length
  | .mmio => im.mmio.length

/-- An image fits segments when each table has the blocks that its segment needs. -/
def Fits (im : Image) (s : Segments) : Prop := ∀ seg, im.length seg = s.blocks seg

def empty (s : Segments) : Image where
  text := .empty (s.blocks .text)
  data := .empty (s.blocks .data)
  stack := .empty (s.blocks .stack)
  mmio := .empty (s.blocks .mmio)

def word? (im : Image) (seg : Segment) (i : Nat) : Option UInt32 :=
  match seg with
  | .text => (im.text.slot i).map Statement.binary
  | .data => im.data.slot i
  | .stack => im.stack.slot i
  | .mmio => im.mmio.slot i

def word (im : Image) (seg : Segment) (i : Nat) : UInt32 := (im.word? seg i).getD 0

/-- Stores the word that stands at `a` into a slot of a segment; in the text segment it is
decoded. -/
def write (decode : Decoder) (im : Image) (seg : Segment) (i : Nat) (a w : UInt32) : Image :=
  match seg with
  | .text => { im with text := im.text.put i (some (decode w a)) }
  | .data => { im with data := im.data.put i (some w) }
  | .stack => { im with stack := im.stack.put i (some w) }
  | .mmio => { im with mmio := im.mmio.put i (some w) }

def install (im : Image) (i : Nat) (st : Statement) : Image :=
  { im with text := im.text.put i (some st) }

theorem fits_empty (s : Segments) : (empty s).Fits s := by
  intro seg
  cases seg <;> simp [empty, length]

@[simp] theorem length_write (decode : Decoder) (im : Image) (seg other : Segment) (i : Nat)
    (a w : UInt32) : (im.write decode seg i a w).length other = im.length other := by
  cases seg <;> cases other <;> simp [write, length]

@[simp] theorem length_install (im : Image) (i : Nat) (st : Statement) (other : Segment) :
    (im.install i st).length other = im.length other := by
  cases other <;> simp [install, length]

@[simp] theorem word?_empty (s : Segments) (seg : Segment) (i : Nat) :
    (empty s).word? seg i = none := by
  cases seg <;> simp [empty, word?]

/-- A word elsewhere is kept, whatever the decoder makes of the word that is stored. -/
theorem word?_write_of_ne (decode : Decoder) (im : Image) {seg other : Segment} {i j : Nat}
    (hi : i < im.length seg * blockWords) (a w : UInt32) (hne : ¬ (seg = other ∧ i = j)) :
    (im.write decode seg i a w).word? other j = im.word? other j := by
  cases seg <;> cases other <;>
    simp only [write, word?, true_and, BlockTable.slot_put _ hi] at hne ⊢
  all_goals rw [if_neg hne]

theorem word?_write {decode : Decoder} (hd : decode.Faithful) (im : Image) (seg : Segment)
    {i : Nat} (hi : i < im.length seg * blockWords) (a w : UInt32) (other : Segment) (j : Nat) :
    (im.write decode seg i a w).word? other j =
      if seg = other ∧ i = j then some w else im.word? other j := by
  cases seg <;> cases other <;>
    simp only [write, word?, reduceCtorEq, false_and, true_and, if_false, BlockTable.slot_put _ hi]
  split <;> simp [hd w a]

end Image
end ArchState
