import ArchState.Machine.Build
import ArchState.Proofs.Memory.Undo
import ArchState.Proofs.Register.Undo

/-! # Recorded operations

The operations of a machine that are undone by a step back. Each of them either is refused and
leaves the machine as it is, or sends one record to the log. Such a record undoes the operation
in every machine that agrees with what the operation has left, so that it may be used after any
number of other records.
-/
namespace ArchState

inductive Mutation where
  | word (a v : UInt32)
  | half (a v : UInt32)
  | byte (a v : UInt32)
  | rawWord (a v : UInt32)
  | doubleWord (a : UInt32) (d : UInt64)
  | integer (key : RegisterKey) (value : UInt64)
  | float (number : Int) (value : UInt64)
  | single (key : RegisterKey) (bits : UInt32)
  | control (key : RegisterKey) (value : UInt64)
  | setBits (number : Int) (mask : UInt64)
  | clearBits (number : Int) (mask : UInt64)
  | programCounter (a : UInt32)
  deriving DecidableEq, Repr

def Mutation.writesZero : Mutation → Bool
  | .integer key _ => (Integer.find? key).any fun i => (Integer.spec.cell i).number == 0
  | _ => false

/-- What raw readings show of a machine: the words of memory, the integer registers with the
program counter, the floating-point registers and the control registers. -/
structure MachineValues where
  word : UInt32 → Except AddressFault UInt32
  integer : Integer.spec.Position → UInt64
  float : Floating.spec.Position → UInt64
  control : Control.spec.Position → UInt64

namespace Machine
variable {m n : Machine} {α : Type} {record : UndoRecord}

/-- Makes an operation and answers what its place held before, if it was not ignored. -/
def mutate (m : Machine) : Mutation → Step Machine (Except AddressFault (Option UInt64))
  | .word a v =>
    (m.inMemory (m.memory.setWord a v)).map (Except.map fun old => some old.toUInt64)
  | .half a v =>
    (m.inMemory (m.memory.setHalf a v)).map (Except.map fun old => some old.toUInt64)
  | .byte a v =>
    (m.inMemory (m.memory.setByte a v)).map (Except.map fun old => some old.toUInt64)
  | .rawWord a v =>
    (m.inMemory (m.memory.setRawWord a v)).map (Except.map fun old => some old.toUInt64)
  | .doubleWord a d => (m.inMemory (m.memory.setDouble a d)).map (Except.map some)
  | .integer key value => (m.inIntegers (m.integers.update key value)).map .ok
  | .float number value => (m.inFloats (m.floats.update number value)).map .ok
  | .single key bits => (m.inFloats (m.floats.updateSingle key bits)).map .ok
  | .control key value => (m.inControls (m.controls.update key value)).map .ok
  | .setBits number mask => (m.inControls (m.controls.setBits number mask)).map .ok
  | .clearBits number mask => (m.inControls (m.controls.clearBits number mask)).map .ok
  | .programCounter a =>
    (m.inIntegers (m.integers.setPc a)).map fun old => .ok (some old.toUInt64)

/-- Whether an operation fails or is ignored: it faults, there is no such register, the control
register is read-only, or it is register 0. -/
def refuses (m : Machine) (op : Mutation) : Bool :=
  match (m.mutate op).answer with
  | .error _ => true
  | .ok none => true
  | .ok (some _) => op.writesZero

def values (m : Machine) : MachineValues where
  word := m.memory.rawWord
  integer := m.integers.bank.read
  float := m.floats.bank.read
  control := m.controls.bank.read

/-- Two machines with the same stored values, in memories that are laid out alike. -/
structure Agrees (m n : Machine) : Prop where
  memory : m.memory.Agrees n.memory
  integers : m.integers.bank.values = n.integers.bank.values
  floats : m.floats.bank.values = n.floats.bank.values
  controls : m.controls.bank.values = n.controls.bank.values

theorem Agrees.refl (m : Machine) : m.Agrees m := ⟨.refl _, rfl, rfl, rfl⟩

theorem Agrees.values (h : m.Agrees n) : m.values = n.values := by
  have hi : m.integers.bank.read = n.integers.bank.read := by
    funext i
    rw [Bank.read, Bank.read, h.integers]
  have hf : m.floats.bank.read = n.floats.bank.read := by
    funext i
    rw [Bank.read, Bank.read, h.floats]
  have hc : m.controls.bank.read = n.controls.bank.read := by
    funext i
    rw [Bank.read, Bank.read, h.controls]
  rw [Machine.values, Machine.values, h.memory.rawWord, hi, hf, hc]

/-- A machine with a log of its own, to which memory and every register file send. -/
structure Logs (m : Machine) (capacity : Nat) : Prop where
  memory : m.memory.sink = some .log
  integers : m.integers.sink = some .log
  floats : m.floats.sink = some .log
  controls : m.controls.sink = some .log
  log : ∃ log, m.log = some log ∧ log.capacity = capacity

/-- A machine is built in three steps: its layouts are registered, one of them is selected, and
the general settings are applied. -/
theorem ofSettings_eq_ok {s : Settings} (h : ofSettings s = .ok m) :
    ∃ n selected, (initial s.reservations.harts).registerAll s.memory.layouts = .ok n ∧
      n.select s.memory.configuration = .ok selected ∧
      m = (let built := { selected.state with
            memory := { selected.state.memory with selfModifying := s.general.selfModifying }
            startAtMain := s.general.startAtMain }
        if s.general.backstep then
          { built with log := some (.empty s.general.backstepLimit) }.attach (some .log)
        else built) := by
  unfold ofSettings at h
  by_cases hharts : s.reservations.harts = 0
  · rw [if_pos hharts] at h
    cases h
  · rw [if_neg hharts] at h
    cases hr : (initial s.reservations.harts).registerAll s.memory.layouts with
    | error e =>
      rw [hr] at h
      cases h
    | ok n =>
      rw [hr] at h
      change (((n.select s.memory.configuration).mapError SetupError.layout).bind _) = _ at h
      cases hs : n.select s.memory.configuration with
      | error e =>
        rw [hs] at h
        cases h
      | ok selected =>
        rw [hs] at h
        refine ⟨n, selected, rfl, hs, ?_⟩
        by_cases hb : s.general.backstep = true
        · change (if s.general.backstep = true then _ else _) = _ at h
          rw [if_pos hb] at h
          cases h
          rw [if_pos hb]
        · change (if s.general.backstep = true then _ else _) = _ at h
          rw [if_neg hb] at h
          cases h
          rw [if_neg hb]

theorem logs_ofSettings {s : Settings} (h : ofSettings s = .ok m) (hb : s.general.backstep = true) :
    m.Logs s.general.backstepLimit := by
  obtain ⟨n, selected, -, -, hm⟩ := ofSettings_eq_ok h
  rw [if_pos hb] at hm
  rw [hm]
  exact ⟨rfl, rfl, rfl, rfl, _, rfl, rfl⟩

end Machine
end ArchState
