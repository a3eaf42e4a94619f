import ArchState.Text.Hex

/-! # Program statements

The text segment holds statements, not words. A decoder makes a statement from a word and
the address it stands at; memory uses it when a program changes its own text.
-/
namespace ArchState

/-- One instruction: its encoding, its address and, if it was assembled, where it came from. -/
structure Statement where
  binary : UInt32
  address : UInt32
  source : Option String := none
  line : Option UInt32 := none
  deriving DecidableEq, Repr

namespace Statement

def ofBinary (binary address : UInt32) : Statement := { binary, address }

def withSource (binary address : UInt32) (source : String) (line : UInt32) : Statement :=
  ⟨binary, address, some source, some line⟩

/-- The address, the encoding and, after two blanks, the source. -/
def text (s : Statement) : String :=
  Text.address s.address ++ ": " ++ Text.address s.binary
    ++ (match s.source with
      | some source => "  " ++ source
      | none => "")

end Statement

abbrev Decoder := UInt32 → UInt32 → Statement

namespace Decoder

def binary : Decoder := Statement.ofBinary

/-- A decoder is faithful when its statements have the encoding that they were made from. -/
def Faithful (d : Decoder) : Prop := ∀ word address, (d word address).binary = word

theorem faithful_binary : binary.Faithful := fun _ _ => rfl

end Decoder
end ArchState
