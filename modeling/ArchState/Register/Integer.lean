import ArchState.Layout.Basic
import ArchState.Register.Block
import ArchState.Symbols
import ArchState.Word

/-! # Integer registers

Thirty-two registers and the program counter, which has the number -1 and stands outside the
block. Register 0 discards every write without a trace. The stack pointer, the global pointer
and the program counter are reset to addresses that the layout gives.
-/
namespace ArchState

namespace Integer

def names : List String :=
  ["zero", "ra", "sp", "gp", "tp", "t0", "t1", "t2", "s0", "s1", "a0", "a1", "a2", "a3", "a4",
    "a5", "a6", "a7", "s2", "s3", "s4", "s5", "s6", "s7", "s8", "s9", "s10", "s11", "t3", "t4",
    "t5", "t6"]

def spec : BankSpec where
  cells := (names.zipIdx.map (fun (name, n) => CellSpec.mk name (Int.ofNat n) .plain)
    ++ [CellSpec.mk "pc" (-1) .plain]).toArray
  grounded := by decide

def register (n : Fin 32) : spec.Position := ⟨n.val, Nat.lt_trans n.isLt (by decide)⟩

def stackPointer : spec.Position := register 2

def globalPointer : spec.Position := register 3

def framePointer : spec.Position := register 8

def programCounter : spec.Position := ⟨32, by decide⟩

def block : RegisterBlock spec := ⟨'x', (List.finRange 32).map register⟩

/-- The register of a key; `fp` is another name of register 8. -/
def find? : RegisterKey → Option spec.Position
  | .name "fp" => some framePointer
  | key => block.find? key

end Integer

structure IntegerFile where
  bank : Bank Integer.spec
  sink : Option Sink

namespace IntegerFile
open Integer

def resets (l : Layout) : Vector UInt64 spec.size :=
  (((Vector.replicate _ 0).set stackPointer l.stackPointer.toUInt64).set
    globalPointer l.globalPointer.toUInt64).set programCounter l.textBase.toUInt64

def ofLayout (l : Layout) : IntegerFile := ⟨Bank.initial (resets l), none⟩

/-- Moves the reset values to another layout. What the registers hold is not changed. -/
def applyLayout (f : IntegerFile) (l : Layout) : IntegerFile :=
  { f with bank :=
      ((f.bank.setResetValue stackPointer l.stackPointer.toUInt64).setResetValue
        globalPointer l.globalPointer.toUInt64).setResetValue programCounter l.textBase.toUInt64 }

/-- Writes a register of the block. Register 0 answers zero and keeps everything as it is. -/
def write (f : IntegerFile) (i : spec.Position) (value : UInt64) : Step IntegerFile UInt64 :=
  if (spec.cell i).number = 0 then .quiet 0 f
  else (f.bank.set i value).within fun bank => { f with bank }

def update (f : IntegerFile) (key : RegisterKey) (value : UInt64) :
    Step IntegerFile (Option UInt64) :=
  match find? key with
  | none => .quiet none f
  | some i =>
    let s := f.write i value
    let number := (spec.cell i).number
    let records := if number = 0 then [] else Sink.signals f.sink (.register number s.answer)
    (s.sending records).map some

def restore (f : IntegerFile) (number : Int) (value : UInt64) : Step IntegerFile Unit :=
  match block.byNumber? number with
  | none => .quiet () f
  | some i => (f.write i value).map fun _ => ()

def value (f : IntegerFile) (key : RegisterKey) : Reading (Option UInt64) :=
  match find? key with
  | none => ⟨none, []⟩
  | some i => (f.bank.get i).map some

/-- The lower half of a register as a signed number. -/
def signedLow (f : IntegerFile) (key : RegisterKey) : Reading (Option Int) :=
  (f.value key).map (·.map DoubleWord.signedLow)

def numberOf? (name : String) : Option Int := (find? (.name name)).map fun i => (spec.cell i).number

def pc (f : IntegerFile) : Reading UInt32 := (f.bank.get programCounter).map UInt64.toUInt32

def initialPc (f : IntegerFile) : UInt32 := (f.bank.resetValue programCounter).toUInt32

/-- Writes all 64 bits of the program counter, without a record. -/
def restorePc (f : IntegerFile) (value : UInt64) : Step IntegerFile UInt64 :=
  (f.bank.set programCounter value).within fun bank => { f with bank }

def placePc (f : IntegerFile) (a : UInt32) : Step IntegerFile Unit :=
  (f.restorePc a.toUInt64).map fun _ => ()

def setPc (f : IntegerFile) (a : UInt32) : Step IntegerFile UInt32 :=
  let s := f.restorePc a.toUInt64
  (s.sending (Sink.signals f.sink (.programCounter s.answer))).map UInt64.toUInt32

def incrementPc (f : IntegerFile) : Step IntegerFile Unit :=
  let now := f.pc
  let s := f.placePc (now.answer + 4)
  { s with signals := now.signals ++ s.signals }

/-- Moves the program counter to the start label, if it is wanted, bound and in the text, or
else to its reset value, and answers where. -/
def enter (f : IntegerFile) (startAtMain : Bool) (symbols : Symbols) (inText : UInt32 → Bool) :
    Step IntegerFile UInt32 :=
  let entry := ((symbols Symbols.startLabel).filter fun a => startAtMain && inText a).getD
    f.initialPc
  (f.placePc entry).map fun _ => entry

def reset (f : IntegerFile) : IntegerFile :=
  { f with bank := (block.reset f.bank).reset programCounter }

def observe (f : IntegerFile) (id : ObserverId) : IntegerFile :=
  { f with bank := (block.observe f.bank id).observe programCounter id }

def unobserve (f : IntegerFile) (id : ObserverId) : IntegerFile :=
  { f with bank := ((block.unobserve f.bank id).unobserve programCounter id).2 }

def dump (f : IntegerFile) : List UInt64 := block.dump f.bank

end IntegerFile
end ArchState
