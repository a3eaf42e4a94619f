import ArchState.Machine.Basic

/-! # Building a machine

A machine is built from settings: its layouts are added in their order, the layout to start
with is selected, and a log is attached if steps are to be undone.
-/
namespace ArchState.Machine

def registerAll (m : Machine) (layouts : List Layout) : Except LayoutError Machine :=
  layouts.foldlM register m

def ofSettings (s : Settings) : Except SetupError Machine := do
  if s.reservations.harts = 0 then throw .noHarts
  let m ← ((initial s.reservations.harts).registerAll s.memory.layouts).mapError .layout
  let selected ← (m.select s.memory.configuration).mapError .layout
  let m := selected.state
  let m := { m with
    memory := { m.memory with selfModifying := s.general.selfModifying }
    startAtMain := s.general.startAtMain }
  if s.general.backstep then
    return { m with log := some (.empty s.general.backstepLimit) }.attach (some .log)
  else return m

end ArchState.Machine
