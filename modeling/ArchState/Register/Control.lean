import ArchState.Register.Block
import ArchState.Word

/-! # Control and status registers

The flags and the rounding mode are fields of `fcsr`, the upper counter halves are fields of
the counters. Numbers from `0xC00` to `0xFFF` are read-only: ordinary writes to them are
ignored, and only the backdoor reaches them.
-/
namespace ArchState

namespace Control

def ustatusWritable : UInt64 := 0x11

def fcsrWritable : UInt64 := 0xFF

def flagsMask : UInt64 := 0x1F

def roundingMask : UInt64 := 0xE0

def upperMask : UInt64 := 0xFFFFFFFF00000000

/-- The registers, each view after its base. -/
def spec : BankSpec where
  cells := #[
    ⟨"ustatus", 0x000, .masked (~~~ustatusWritable)⟩,
    ⟨"fcsr", 0x003, .masked (~~~fcsrWritable)⟩,
    ⟨"fflags", 0x001, .view 1 flagsMask⟩,
    ⟨"frm", 0x002, .view 1 roundingMask⟩,
    ⟨"uie", 0x004, .plain⟩,
    ⟨"utvec", 0x005, .plain⟩,
    ⟨"uscratch", 0x040, .plain⟩,
    ⟨"uepc", 0x041, .plain⟩,
    ⟨"ucause", 0x042, .plain⟩,
    ⟨"utval", 0x043, .plain⟩,
    ⟨"uip", 0x044, .plain⟩,
    ⟨"cycle", 0xC00, .readOnly⟩,
    ⟨"time", 0xC01, .readOnly⟩,
    ⟨"instret", 0xC02, .readOnly⟩,
    ⟨"cycleh", 0xC80, .view 11 upperMask⟩,
    ⟨"timeh", 0xC81, .view 12 upperMask⟩,
    ⟨"instreth", 0xC82, .view 13 upperMask⟩]
  grounded := by decide

def register (n : Fin 17) : spec.Position := ⟨n.val, Nat.lt_of_lt_of_le n.isLt (by decide)⟩

/-- The registers in display order: `fcsr` comes after the two fields in it. -/
def block : RegisterBlock spec :=
  ⟨'_', [0, 2, 3, 1, 4, 5, 6, 7, 8, 9, 10, 11, 12, 13, 14, 15, 16].map register⟩

/-- Whether ordinary writes to a number are ignored. -/
def isReadOnly (number : Int) : Bool := number / 1024 == 3

end Control

structure ControlFile where
  bank : Bank Control.spec
  sink : Option Sink

namespace ControlFile
open Control

def initial : ControlFile := ⟨Bank.initial (Vector.replicate _ 0), none⟩

def write (f : ControlFile) (i : spec.Position) (value : UInt64) :
    Step ControlFile (Option UInt64) :=
  let number := (spec.cell i).number
  if isReadOnly number then .quiet none f
  else
    let s := (f.bank.set i value).within fun bank => { f with bank }
    (s.sending (Sink.signals f.sink (.controlRegister number s.answer))).map some

def update (f : ControlFile) (key : RegisterKey) (value : UInt64) :
    Step ControlFile (Option UInt64) :=
  match block.find? key with
  | none => .quiet none f
  | some i => f.write i value

def modify (f : ControlFile) (number : Int) (change : UInt64 → UInt64) :
    Step ControlFile (Option UInt64) :=
  match block.byNumber? number with
  | none => .quiet none f
  | some i =>
    let old := f.bank.get i
    let s := f.write i (change old.answer)
    { s with signals := old.signals ++ s.signals }

def setBits (f : ControlFile) (number : Int) (mask : UInt64) : Step ControlFile (Option UInt64) :=
  f.modify number (· ||| mask)

def clearBits (f : ControlFile) (number : Int) (mask : UInt64) :
    Step ControlFile (Option UInt64) :=
  f.modify number (· &&& ~~~mask)

/-- Writes all bits of the register of a key, without a notice or a record. -/
def backdoor (f : ControlFile) (key : RegisterKey) (value : UInt64) :
    Option UInt64 × ControlFile :=
  match block.find? key with
  | none => (none, f)
  | some i =>
    let (old, bank) := f.bank.backdoor i value
    (some old, { f with bank })

def value (f : ControlFile) (key : RegisterKey) : Reading (Option UInt64) :=
  block.value f.bank key

/-- The lower half of a register as a signed number. -/
def signedLow (f : ControlFile) (key : RegisterKey) : Reading (Option Int) :=
  (f.value key).map (·.map DoubleWord.signedLow)

def peek (f : ControlFile) (number : Int) : Option UInt64 :=
  (block.byNumber? number).map f.bank.read

def numberOf? (name : String) : Option Int :=
  (block.find? (.name name)).map fun i => (spec.cell i).number

def positionOf? (name : String) : Option Nat :=
  (block.find? (.name name)).bind block.position?

def reset (f : ControlFile) : ControlFile := { f with bank := block.reset f.bank }

def observe (f : ControlFile) (id : ObserverId) : ControlFile :=
  { f with bank := block.observe f.bank id }

def unobserve (f : ControlFile) (id : ObserverId) : ControlFile :=
  { f with bank := block.unobserve f.bank id }

def dump (f : ControlFile) : List UInt64 := block.dump f.bank

end ControlFile
end ArchState
