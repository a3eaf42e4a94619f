import ArchState.Layout.Catalog
import ArchState.Memory.Access
import ArchState.Register.Control
import ArchState.Register.Float
import ArchState.Register.Integer
import ArchState.Reservation.Tables
import ArchState.Settings.Basic

/-! # Machines

A machine is the whole architectural state: a catalog of layouts, memory, three register
files and the reservations of its harts. Memory and the register files send their undo
records to sinks of their own, which the machine sets together; the records for the log end
up in the log of the machine.
-/
namespace ArchState

structure Machine where
  catalog : Catalog
  memory : Memory
  integers : IntegerFile
  floats : FloatFile
  controls : ControlFile
  reservations : Reservations
  sink : Option Sink
  /-- The log that the machine brings along, if it was built with one. -/
  log : Option UndoLog
  startAtMain : Bool

namespace Machine
variable {α : Type}

def initial (harts : Nat) : Machine where
  catalog := .initial
  memory := .ofLayout Catalog.initial.current
  integers := .ofLayout Catalog.initial.current
  floats := .initial
  controls := .initial
  reservations := .initial harts
  sink := none
  log := none
  startAtMain := false

def layout (m : Machine) : Layout := m.catalog.current

/-- Puts the records that `signals` carries to the log into it. -/
def keepRecords (m : Machine) (signals : List Signal) : Machine :=
  { m with log := m.log.map fun log => (Signal.recordsTo .log signals).foldl UndoLog.record log }

/-- The step of a machine of which a step of a part has led to `state`. -/
def whole {σ : Type} (s : Step σ α) (put : σ → Machine) : Step Machine α :=
  ⟨s.answer, (put s.state).keepRecords s.signals, s.signals⟩

def inMemory (m : Machine) (s : Step Memory α) : Step Machine α :=
  whole s fun memory => { m with memory }

def inIntegers (m : Machine) (s : Step IntegerFile α) : Step Machine α :=
  whole s fun integers => { m with integers }

def inFloats (m : Machine) (s : Step FloatFile α) : Step Machine α :=
  whole s fun floats => { m with floats }

def inControls (m : Machine) (s : Step ControlFile α) : Step Machine α :=
  whole s fun controls => { m with controls }

def inReservations (m : Machine) (s : Step Reservations α) : Step Machine α :=
  whole s fun reservations => { m with reservations }

def register (m : Machine) (l : Layout) : Except LayoutError Machine :=
  (m.catalog.register l).map fun catalog => { m with catalog }

def resetRegisters (m : Machine) : Machine :=
  { m with
    integers := m.integers.reset
    floats := m.floats.reset
    controls := m.controls.reset }

/-- Selects a layout and tells whether it was another one. If it was, memory is laid out anew
and emptied, and all registers and reservations are reset. -/
def select (m : Machine) (identifier : String) : Except LayoutError (Step Machine Bool) := do
  let (changed, catalog) ← m.catalog.select identifier
  if changed then
    let m := { m with
      catalog
      memory := m.memory.setLayout catalog.current
      integers := m.integers.applyLayout catalog.current }
    let m := m.resetRegisters
    return (m.inReservations m.reservations.reset).map fun _ => true
  else return .quiet false { m with catalog }

def attach (m : Machine) (sink : Option Sink) : Machine :=
  { m with
    memory := { m.memory with sink }
    integers := { m.integers with sink }
    floats := { m.floats with sink }
    controls := { m.controls with sink }
    sink }

/-- Installs another memory and answers the one before. The new one sends to the machine's
sink and keeps the switch for self-modifying code; the old one sends no more. -/
def swapMemory (m : Machine) (memory : Memory) : Memory × Machine :=
  ({ m.memory with sink := none },
    { m with memory :=
        { memory with sink := m.sink, selfModifying := m.memory.selfModifying } })

def enter (m : Machine) (symbols : Symbols) : Step Machine UInt32 :=
  m.inIntegers (m.integers.enter m.startAtMain symbols (m.memory.inSegment .text))

def restore (m : Machine) (record : UndoRecord) : Step Machine (Except AddressFault Unit) :=
  match record with
  | .register n v => (m.inIntegers (m.integers.restore n v)).map .ok
  | .floatRegister n v => (m.inFloats (m.floats.restore n v)).map .ok
  | .controlRegister n v =>
    .quiet (.ok ()) { m with controls := (m.controls.backdoor (.number n) v).2 }
  | .programCounter v => (m.inIntegers (m.integers.restorePc v)).map fun _ => .ok ()
  | record => m.inMemory (m.memory.restore record)

/-- Undoes the newest record of the log and tells whether there was one. The record is taken
from the log even if it cannot be written back. -/
def backstep (m : Machine) : Step Machine (Except AddressFault Bool) :=
  match m.log.bind UndoLog.pop? with
  | none => .quiet (.ok false) m
  | some (record, log) =>
    (restore { m with log := some log } record).map (Except.map fun _ => true)

def reset (m : Machine) : Step Machine Unit :=
  let m := { m with memory := m.memory.clear, log := m.log.map UndoLog.clear }
  let m := m.resetRegisters
  m.inReservations m.reservations.reset

end Machine
end ArchState
