import ArchState.Layout.Range
import ArchState.Word

/-! # Memory layouts

A layout places the five sections and tells where the global pointer and the `.data`
directives start. Every layout has its sections at multiples of four and both pointers
inside `.data`, so no derived address wraps around.
-/
namespace ArchState

structure Sections where
  text : Range
  data : Range
  heap : Range
  stack : Range
  mmio : Range
  deriving DecidableEq

def Sections.range (s : Sections) : Section → Range
  | .text => s.text
  | .data => s.data
  | .heap => s.heap
  | .stack => s.stack
  | .mmio => s.mmio

structure Layout where
  identifier : String
  name : String
  sections : Sections
  gpOffset : UInt32
  externSize : UInt32
  aligned : ∀ s, (sections.range s).low.toNat % 4 = 0
  gp_le : sections.data.low.toNat + gpOffset.toNat ≤ sections.data.high.toNat
  extern_le : sections.data.low.toNat + externSize.toNat ≤ sections.data.high.toNat

namespace Layout

def startsUnaligned (sections : Sections) (s : Section) : Bool :=
  (sections.range s).low.toNat % 4 != 0

theorem aligned_of_find?_eq_none {sections : Sections}
    (h : Section.all.find? (startsUnaligned sections) = none) (s : Section) :
    (sections.range s).low.toNat % 4 = 0 := by
  have := List.find?_eq_none.mp h s (Section.mem_all s)
  simpa [startsUnaligned] using this

/-- The layout made of these parts, or the first check that they fail: the start of each
section in turn, then the global pointer, then the start of the `.data` directives. -/
def ofParts (identifier name : String) (sections : Sections) (gpOffset externSize : UInt32) :
    Except LayoutError Layout :=
  match h : Section.all.find? (startsUnaligned sections) with
  | some s => .error (.unalignedSection identifier s (sections.range s).low)
  | none =>
    if hg : sections.data.low.toNat + gpOffset.toNat ≤ sections.data.high.toNat then
      if he : sections.data.low.toNat + externSize.toNat ≤ sections.data.high.toNat then
        .ok ⟨identifier, name, sections, gpOffset, externSize,
          aligned_of_find?_eq_none h, hg, he⟩
      else
        .error (.outsideData identifier .dataBase
          (sections.data.low.toNat + externSize.toNat))
    else
      .error (.outsideData identifier .globalPointer
        (sections.data.low.toNat + gpOffset.toNat))

/-- The parts that pass the checks are those of some layout, which is what they make. -/
theorem ofParts_eq_ok_iff {identifier name : String} {sections : Sections}
    {gpOffset externSize : UInt32} {l : Layout} :
    ofParts identifier name sections gpOffset externSize = .ok l ↔
      l.identifier = identifier ∧ l.name = name ∧ l.sections = sections ∧
        l.gpOffset = gpOffset ∧ l.externSize = externSize := by
  obtain ⟨i, n, parts, gp, size, haligned, hgp, hsize⟩ := l
  unfold ofParts
  constructor
  · intro h
    split at h
    · exact nomatch h
    split at h
    · split at h
      · cases h
        exact ⟨rfl, rfl, rfl, rfl, rfl⟩
      · exact nomatch h
    · exact nomatch h
  · rintro ⟨rfl, rfl, rfl, rfl, rfl⟩
    split
    · rename_i s hs
      have hs := List.find?_some hs
      simp [startsUnaligned, haligned s] at hs
    · rw [dif_pos hgp, dif_pos hsize]

variable (l : Layout)

def range? (name : String) : Option Range := (Section.ofName? name).map l.sections.range

def textBase : UInt32 := l.sections.text.low

def textLimit : UInt32 := l.sections.text.high

def dataSegmentBase : UInt32 := l.sections.data.low

/-- The data segment reaches over `.data` and the heap. -/
def dataSegmentLimit : UInt32 := (l.sections.data.combine l.sections.heap).high

def externBase : UInt32 := l.sections.data.low

def globalPointer : UInt32 := l.sections.data.low + l.gpOffset

def dataBase : UInt32 := l.sections.data.low + l.externSize

def heapBase : UInt32 := l.sections.heap.low

/-- The highest word of the stack, which grows downwards. -/
def stackBase : UInt32 := wordBase l.sections.stack.high

def stackPointer : UInt32 := l.stackBase

def stackLimit : UInt32 := l.sections.stack.low

def mmioBase : UInt32 := l.sections.mmio.low

def mmioLimit : UInt32 := l.sections.mmio.high

theorem globalPointer_toNat :
    l.globalPointer.toNat = l.sections.data.low.toNat + l.gpOffset.toNat := by
  have h := l.gp_le
  have hb := l.sections.data.high.toNat_lt
  rw [globalPointer, UInt32.toNat_add, Nat.mod_eq_of_lt (by omega)]

theorem dataBase_toNat :
    l.dataBase.toNat = l.sections.data.low.toNat + l.externSize.toNat := by
  have h := l.extern_le
  have hb := l.sections.data.high.toNat_lt
  rw [dataBase, UInt32.toNat_add, Nat.mod_eq_of_lt (by omega)]

theorem stackBase_toNat : l.stackBase.toNat = l.sections.stack.high.toNat / 4 * 4 :=
  wordBase_toNat _

theorem dataSegmentLimit_toNat : l.dataSegmentLimit.toNat =
    max l.sections.data.high.toNat l.sections.heap.high.toNat := by
  simp only [dataSegmentLimit, Range.combine, max, UInt32.le_iff_toNat_le]
  split <;> rfl

end Layout
end ArchState
