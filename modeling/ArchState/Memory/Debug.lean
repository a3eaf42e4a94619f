import ArchState.Memory.Basic
import ArchState.Text.Quoted

/-! # Memory in diagnostics

The one-line description of a memory: its layout's identifier, the segments, the heap cursor,
the switch for self-modifying code and whether a sink is attached.
-/
namespace ArchState

def Bounds.debug (b : Bounds) : String :=
  "Bounds \x7b base: " ++ toString b.base ++ ", end: " ++ toString b.stop ++ " \x7d"

def Segments.debug (s : Segments) : String :=
  "SegmentLayout \x7b text: " ++ s.text.debug ++ ", data: " ++ s.data.debug
    ++ ", stack: " ++ s.stack.debug ++ ", mmio: " ++ s.mmio.debug
    ++ ", stack_top: " ++ toString s.stackTop ++ ", dimensions: ["
    ++ ", ".intercalate (Segment.all.map fun seg => toString (s.blocks seg)) ++ "] \x7d"

def Memory.debug (m : Memory) : String :=
  "Memory \x7b configuration: " ++ Text.quoted m.layout.identifier
    ++ ", layout: " ++ m.segments.debug
    ++ ", heap_address: " ++ Text.address m.heap
    ++ ", self_modifying_code: " ++ toString m.selfModifying
    ++ ", backstep: BackstepSlot(attached: " ++ toString m.sink.isSome ++ "), .. \x7d"

end ArchState
