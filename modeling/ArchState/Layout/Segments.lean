import ArchState.Layout.Basic

/-! # Segments

Memory keeps four segments: text, data with the heap, stack, and memory-mapped I/O. Each is
an interval of addresses cut to what its table can hold: the low part of it, or the high
part of the stack. Words of the stack are counted downwards from the highest one, words of
the others upwards. Where segments overlap, data comes before stack, stack before
memory-mapped I/O and text last.
-/
namespace ArchState

/-- The addresses from `base` up to but not including `stop`. -/
structure Bounds where
  base : Nat
  stop : Nat
  deriving DecidableEq, Repr

namespace Bounds

def size (b : Bounds) : Nat := b.stop - b.base

def limit (b : Bounds) : Nat := b.stop - 1

def contains (b : Bounds) (a : UInt32) : Bool := b.base ≤ a.toNat && a.toNat < b.stop

theorem contains_iff {b : Bounds} {a : UInt32} :
    b.contains a = true ↔ b.base ≤ a.toNat ∧ a.toNat < b.stop := by simp [contains]

end Bounds

inductive Segment where
  | text
  | data
  | stack
  | mmio
  deriving DecidableEq, Repr

def Segment.all : List Segment := [.text, .data, .stack, .mmio]

theorem Segment.mem_all (seg : Segment) : seg ∈ all := by cases seg <;> decide

def blockWords : Nat := 1024

def blockBytes : Nat := 4 * blockWords

def Segment.maxBlocks : Segment → Nat
  | .mmio => 16
  | _ => 1024

structure Segments where
  text : Bounds
  data : Bounds
  stack : Bounds
  mmio : Bounds
  deriving DecidableEq, Repr

namespace Segments

/-- From `low` to the word that holds `high`, cut at the top. -/
def upward (low high : UInt32) (blocks : Nat) : Bounds :=
  ⟨low.toNat, low.toNat + min (high.toNat / 4 * 4 + 4 - low.toNat) (blocks * blockBytes)⟩

/-- From `low` to the word at `top`, cut at the bottom. -/
def downward (low top : UInt32) (blocks : Nat) : Bounds :=
  let stop := top.toNat + 4
  ⟨stop - min (stop - low.toNat) (blocks * blockBytes), stop⟩

def ofLayout (l : Layout) : Segments where
  text := upward l.textBase l.textLimit Segment.text.maxBlocks
  data := upward l.dataSegmentBase l.dataSegmentLimit Segment.data.maxBlocks
  stack := downward l.stackLimit l.stackBase Segment.stack.maxBlocks
  mmio := upward l.mmioBase l.mmioLimit Segment.mmio.maxBlocks

def bounds (s : Segments) : Segment → Bounds
  | .text => s.text
  | .data => s.data
  | .stack => s.stack
  | .mmio => s.mmio

def stackTop (s : Segments) : Nat := s.stack.stop - 4

def blocks (s : Segments) (seg : Segment) : Nat :=
  ((s.bounds seg).size + blockBytes - 1) / blockBytes

def owner? (s : Segments) (a : UInt32) : Option Segment :=
  if s.data.contains a then some .data
  else if s.stack.contains a then some .stack
  else if s.mmio.contains a then some .mmio
  else if s.text.contains a then some .text
  else none

/-- The place in the table of a segment of the word that holds the byte at `a`. -/
def slot (s : Segments) (seg : Segment) (a : UInt32) : Nat :=
  match seg with
  | .stack => (s.stackTop - a.toNat / 4 * 4) / 4
  | _ => (a.toNat - (s.bounds seg).base) / 4

theorem contains_of_owner? {s : Segments} {a : UInt32} {seg : Segment}
    (h : s.owner? a = some seg) : (s.bounds seg).contains a = true := by
  unfold owner? at h
  split at h
  · cases h; assumption
  split at h
  · cases h; assumption
  split at h
  · cases h; assumption
  split at h
  · cases h; assumption
  · cases h

end Segments
end ArchState
