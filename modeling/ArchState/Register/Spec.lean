/-! # Kinds of register cells

A bank of cells is described by a list of names, numbers and kinds. A cell has storage of its
own or is a view of some bits of an earlier cell, so that following views always ends.
-/
namespace ArchState

/-- How a cell treats its storage. A view shows the bits of `mask` in the cell at position
`base`, moved down to bit zero. -/
inductive CellKind where
  | plain
  | masked (mask : UInt64)
  | readOnly
  | view (base : Nat) (mask : UInt64)
  deriving DecidableEq, Repr

/-- The position of the lowest bit of a mask, or zero if it has none. -/
def lowestBit (mask : UInt64) : Nat := ((List.range 64).find? fun i => mask.toNat.testBit i).getD 0

def field (mask value : UInt64) : UInt64 := (value &&& mask) >>> UInt64.ofNat (lowestBit mask)

/-- The value `old` with the bits of `mask` replaced by the lowest bits of `value`. -/
def setField (mask old value : UInt64) : UInt64 :=
  ((value <<< UInt64.ofNat (lowestBit mask)) &&& mask) ||| (old &&& ~~~mask)

structure CellSpec where
  name : String
  number : Int
  kind : CellKind
  deriving DecidableEq, Repr

/-- Whether a cell at position `i` looks only at earlier cells. -/
def CellSpec.grounded (c : CellSpec) (i : Nat) : Bool :=
  match c.kind with
  | .view base _ => base < i
  | _ => true

structure BankSpec where
  cells : Array CellSpec
  grounded : ∀ i : Fin cells.size, cells[i].grounded i = true

namespace BankSpec

def size (spec : BankSpec) : Nat := spec.cells.size

abbrev Position (spec : BankSpec) := Fin spec.size

def cell (spec : BankSpec) (i : spec.Position) : CellSpec := spec.cells.toVector.get i

def empty : BankSpec := ⟨#[], fun i => i.elim0⟩

def ofList? (cells : List CellSpec) : Option BankSpec :=
  if h : ∀ i : Fin cells.toArray.size, cells.toArray[i].grounded i = true then
    some ⟨cells.toArray, h⟩
  else none

theorem base_lt (spec : BankSpec) {i : spec.Position} {base : Nat} {mask : UInt64}
    (h : (spec.cell i).kind = .view base mask) : base < i.val := by
  have := spec.grounded i
  simp only [CellSpec.grounded] at this
  change (match (spec.cell i).kind with | .view base _ => decide (base < i.val) | _ => true) = true
    at this
  rw [h] at this
  simpa using this

def basePosition (spec : BankSpec) (i : spec.Position) (base : Nat) (h : base < i.val) :
    spec.Position := ⟨base, Nat.lt_trans h i.isLt⟩

end BankSpec
end ArchState
