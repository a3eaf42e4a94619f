import ArchState.Machine.Basic
import ArchState.Memory.Debug

/-! # Machines in diagnostics

The one-line description of a machine.
-/
namespace ArchState

def Machine.debug (m : Machine) : String :=
  "Machine \x7b configuration: " ++ Text.quoted m.layout.identifier
    ++ ", memory: " ++ m.memory.debug
    ++ ", reservations: " ++ m.reservations.debug
    ++ ", backstep: " ++ toString m.sink.isSome
    ++ ", start_at_main: " ++ toString m.startAtMain ++ ", .. \x7d"

end ArchState
