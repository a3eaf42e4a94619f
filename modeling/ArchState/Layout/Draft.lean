import ArchState.Layout.Basic
import ArchState.Layout.Literal

/-! # Drafts of layouts

A draft is a layout as it is written down: its addresses are literals and its sections have
names. It resolves to a layout or to the first thing that is wrong with it, once its ranges are
resolved.
-/
namespace ArchState

structure RangeDraft where
  low : AddressLiteral
  high : AddressLiteral
  deriving DecidableEq, Repr

def RangeDraft.resolve (d : RangeDraft) : Except LayoutError Range := do
  let low ← d.low.resolve
  let high ← d.high.resolve
  Range.between low high

/-- A draft of a layout, with ranges of type `ρ`. -/
structure LayoutDraft (ρ : Type) where
  identifier : String
  name : Option String
  /-- The sections in the order in which they were written; the last of a name counts. -/
  sections : List (String × ρ)
  gpOffset : AddressLiteral
  externSize : AddressLiteral

namespace LayoutDraft

def range (d : LayoutDraft Range) (s : Section) : Except LayoutError Range :=
  match d.sections.reverse.find? (·.1 == s.name) with
  | some (_, r) => .ok r
  | none => .error (.missingSection d.identifier s)

/-- The layout that a draft means. A draft without a name has its identifier for one. -/
def resolve (d : LayoutDraft Range) : Except LayoutError Layout := do
  let text ← d.range .text
  let data ← d.range .data
  let heap ← d.range .heap
  let stack ← d.range .stack
  let mmio ← d.range .mmio
  let gpOffset ← d.gpOffset.resolve
  let externSize ← d.externSize.resolve
  Layout.ofParts d.identifier (d.name.getD d.identifier) ⟨text, data, heap, stack, mmio⟩
    gpOffset externSize

end LayoutDraft
end ArchState
