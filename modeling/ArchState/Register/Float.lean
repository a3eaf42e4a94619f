import ArchState.Register.Block
import ArchState.Register.NanBox

/-! # Floating-point registers

Thirty-two registers of 64 raw bits. A double is kept as it is, a single in a NaN box.
-/
namespace ArchState

namespace Floating

def names : List String :=
  ["ft0", "ft1", "ft2", "ft3", "ft4", "ft5", "ft6", "ft7", "fs0", "fs1", "fa0", "fa1", "fa2",
    "fa3", "fa4", "fa5", "fa6", "fa7", "fs2", "fs3", "fs4", "fs5", "fs6", "fs7", "fs8", "fs9",
    "fs10", "fs11", "ft8", "ft9", "ft10", "ft11"]

def spec : BankSpec where
  cells := (names.zipIdx.map fun (name, n) => ⟨name, Int.ofNat n, .plain⟩).toArray
  grounded := by decide

def register (n : Fin 32) : spec.Position := ⟨n.val, Nat.lt_of_lt_of_eq n.isLt (by decide)⟩

def block : RegisterBlock spec := ⟨'f', (List.finRange 32).map register⟩

end Floating

structure FloatFile where
  bank : Bank Floating.spec
  sink : Option Sink

namespace FloatFile
open Floating

def initial : FloatFile := ⟨Bank.initial (Vector.replicate _ 0), none⟩

/-- Writes the register that was found, if there is one. -/
def write (f : FloatFile) (found : Option spec.Position) (value : UInt64) :
    Step FloatFile (Option UInt64) :=
  match found with
  | none => .quiet none f
  | some i =>
    let s := (f.bank.set i value).within fun bank => { f with bank }
    (s.sending (Sink.signals f.sink (.floatRegister (spec.cell i).number s.answer))).map some

/-- Writes all bits of a register. A name does not do for this one. -/
def update (f : FloatFile) (number : Int) (value : UInt64) : Step FloatFile (Option UInt64) :=
  f.write (block.byNumber? number) value

def updateSingle (f : FloatFile) (key : RegisterKey) (bits : UInt32) :
    Step FloatFile (Option UInt64) := f.write (block.find? key) (nanBox bits)

def restore (f : FloatFile) (number : Int) (value : UInt64) : Step FloatFile Unit :=
  ((block.update f.bank (.number number) value).within fun bank => { f with bank }).map
    fun _ => ()

def value (f : FloatFile) (key : RegisterKey) : Reading (Option UInt64) := block.value f.bank key

def single (f : FloatFile) (key : RegisterKey) : Reading (Option UInt32) :=
  (f.value key).map (·.map nanUnbox)

def numberOf? (name : String) : Option Int :=
  (block.find? (.name name)).map fun i => (spec.cell i).number

def reset (f : FloatFile) : FloatFile := { f with bank := block.reset f.bank }

def observe (f : FloatFile) (id : ObserverId) : FloatFile :=
  { f with bank := block.observe f.bank id }

def unobserve (f : FloatFile) (id : ObserverId) : FloatFile :=
  { f with bank := block.unobserve f.bank id }

def dump (f : FloatFile) : List UInt64 := block.dump f.bank

end FloatFile
end ArchState
