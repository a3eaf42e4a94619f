import ArchState.Text.Hex

/-! # Faults of memory layouts

Why a range, a layout or a choice of layout is refused.
-/
namespace ArchState

inductive Section where
  | text
  | data
  | heap
  | stack
  | mmio
  deriving DecidableEq, Repr

namespace Section

def all : List Section := [text, data, heap, stack, mmio]

theorem mem_all (s : Section) : s ∈ all := by cases s <;> decide

def name : Section → String
  | text => ".text"
  | data => ".data"
  | heap => "heap"
  | stack => "stack"
  | mmio => "mmio"

def ofName? (name : String) : Option Section := all.find? (·.name == name)

end Section

/-- An address that a layout gives relative to the start of `.data`. -/
inductive DataPointer where
  | globalPointer
  | dataBase
  deriving DecidableEq, Repr

def DataPointer.name : DataPointer → String
  | globalPointer => "global pointer"
  | dataBase => ".data base"

inductive LayoutError where
  | invalidRange (low high : UInt32)
  | missingSection (identifier : String) (which : Section)
  | unalignedSection (identifier : String) (which : Section) (start : UInt32)
  | outsideData (identifier : String) (pointer : DataPointer) (place : Nat)
  | unknown (identifier : String)
  | duplicate (identifier : String)
  | invalidAddress (literal : String)
  deriving DecidableEq, Repr

def LayoutError.message : LayoutError → String
  | invalidRange low high =>
    "invalid range " ++ Text.address low ++ "..=" ++ Text.address high
  | missingSection identifier which =>
    "memory configuration `" ++ identifier ++ "` has no `" ++ which.name ++ "` section"
  | unalignedSection identifier which start =>
    "memory configuration `" ++ identifier ++ "`: section `" ++ which.name
      ++ "` starts at unaligned " ++ Text.address start
  | outsideData identifier pointer place =>
    "memory configuration `" ++ identifier ++ "`: " ++ pointer.name ++ " " ++ Text.hex place
      ++ " lies outside .data"
  | unknown identifier => "unknown memory configuration `" ++ identifier ++ "`"
  | duplicate identifier => "memory configuration `" ++ identifier ++ "` is already registered"
  | invalidAddress literal => "invalid address literal `" ++ literal ++ "`"

end ArchState
