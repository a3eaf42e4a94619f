import ArchState.Memory.Image
import ArchState.Fault
import ArchState.Signal

/-! # Memory

A memory is an image laid out by a layout, with a heap cursor, a switch for programs that
change their own text, a decoder, the registrations of its observers and the sink of its
undo records. The tables of the image always have the lengths that the layout asks for.
-/
namespace ArchState

/-- An observer of the words from the one at `first` to the one at `last`. -/
structure Registration where
  id : ObserverId
  first : UInt32
  last : UInt32
  deriving DecidableEq, Repr

def Registration.watches (r : Registration) (a : UInt32) : Bool :=
  r.first ≤ a && a.toNat < r.last.toNat + 4

structure Memory where
  layout : Layout
  image : Image
  heap : UInt32
  selfModifying : Bool
  decoder : Decoder
  registrations : List Registration
  sink : Option Sink
  fits : image.Fits (Segments.ofLayout layout)

namespace Memory

def ofLayout (l : Layout) : Memory where
  layout := l
  image := .empty (Segments.ofLayout l)
  heap := l.heapBase
  selfModifying := false
  decoder := Decoder.binary
  registrations := []
  sink := none
  fits := Image.fits_empty _

def segments (m : Memory) : Segments := Segments.ofLayout m.layout

def setLayout (m : Memory) (l : Layout) : Memory :=
  { m with
    layout := l
    image := .empty (Segments.ofLayout l)
    heap := l.heapBase
    fits := Image.fits_empty _ }

def clear (m : Memory) : Memory := m.setLayout m.layout

def sameShape (m source : Memory) : Bool :=
  Segment.all.all fun seg => source.segments.blocks seg == m.segments.blocks seg

def copyFrom? (m source : Memory) : Option Memory :=
  if m.sameShape source then
    some { m with
      layout := source.layout
      image := source.image
      heap := source.heap
      fits := source.fits }
  else none

theorem copyFrom?_eq_some {m source copy : Memory} (h : m.copyFrom? source = some copy) :
    copy = { m with
      layout := source.layout
      image := source.image
      heap := source.heap
      fits := source.fits } := by
  rw [copyFrom?] at h
  split at h
  · exact (Option.some.inj h).symm
  · cases h

def inSegment (m : Memory) (seg : Segment) (a : UInt32) : Bool :=
  (m.segments.bounds seg).contains a

/-- The word of a segment at the place of `a`, or none if it is null. -/
def wordAt? (m : Memory) (seg : Segment) (a : UInt32) : Option UInt32 :=
  m.image.word? seg (m.segments.slot seg a)

def wordAt (m : Memory) (seg : Segment) (a : UInt32) : UInt32 :=
  m.image.word seg (m.segments.slot seg a)

def byteAt (m : Memory) (seg : Segment) (a : UInt32) : UInt8 :=
  Word.byte (m.wordAt seg a) (a.toNat % 4)

def putWord (m : Memory) (seg : Segment) (a w : UInt32) : Memory :=
  { m with
    image := m.image.write m.decoder seg (m.segments.slot seg a) a w
    fits := fun s => by rw [Image.length_write, m.fits] }

def putStatement (m : Memory) (a : UInt32) (st : Statement) : Memory :=
  { m with
    image := m.image.install (m.segments.slot .text a) st
    fits := fun s => by rw [Image.length_install, m.fits] }

end Memory
end ArchState
