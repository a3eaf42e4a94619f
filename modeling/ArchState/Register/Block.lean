import ArchState.Register.Bank
import ArchState.Text.Numeral

/-! # Register blocks

A block lists cells of a bank in display order and finds them by number or by name. A name is
a cell's own name or the block's letter followed by a number in canonical decimal form.
-/
namespace ArchState

inductive RegisterKey where
  | number (n : Int)
  | name (s : String)
  deriving DecidableEq, Repr

structure RegisterBlock (spec : BankSpec) where
  letter : Char
  members : List spec.Position

namespace RegisterBlock
variable {spec : BankSpec} (block : RegisterBlock spec)

def size : Nat := block.members.length

def isEmpty : Bool := block.members.isEmpty

/-- The number written in canonical decimal form: no sign, no leading zero, below `2 ^ 31`. -/
def canonical? (digits : List Char) : Option Int :=
  if digits.length > 1 && digits.head? == some '0' then none
  else match Text.decimal? digits with
    | some n => if n < 0x80000000 then some (Int.ofNat n) else none
    | none => none

def numeral? (s : String) : Option Int :=
  match s.toList with
  | c :: digits => if c = block.letter then canonical? digits else none
  | [] => none

/-- The cell of a number; the last one listed if there are several. -/
def byNumber? (n : Int) : Option spec.Position :=
  block.members.reverse.find? fun i => (spec.cell i).number == n

/-- The cell of a name. Names of less than two bytes are not looked up. -/
def byName? (s : String) : Option spec.Position :=
  if s.utf8ByteSize < 2 then none
  else match block.members.find? fun i => (spec.cell i).name == s with
    | some i => some i
    | none => (block.numeral? s).bind block.byNumber?

def find? : RegisterKey → Option spec.Position
  | .number n => block.byNumber? n
  | .name s => block.byName? s

def position? (i : spec.Position) : Option Nat := block.members.findIdx? (· == i)

def reset (b : Bank spec) : Bank spec := block.members.foldl Bank.reset b

def observe (b : Bank spec) (id : ObserverId) : Bank spec :=
  block.members.foldl (fun b i => b.observe i id) b

def unobserve (b : Bank spec) (id : ObserverId) : Bank spec :=
  block.members.foldl (fun b i => (b.unobserve i id).2) b

def update (b : Bank spec) (key : RegisterKey) (value : UInt64) :
    Step (Bank spec) (Option UInt64) :=
  match block.find? key with
  | some i => (b.set i value).map some
  | none => .quiet none b

def value (b : Bank spec) (key : RegisterKey) : Reading (Option UInt64) :=
  match block.find? key with
  | some i => (b.get i).map some
  | none => ⟨none, []⟩

def dump (b : Bank spec) : List UInt64 := block.members.map b.read

end RegisterBlock
end ArchState
