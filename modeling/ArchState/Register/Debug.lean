import ArchState.Register.Bank
import ArchState.Text.Quoted

/-! # Registers in diagnostics

The one-line description of a cell: its name, its number, what it holds and its kind.
-/
namespace ArchState
variable {spec : BankSpec}

/-- The kind of a cell; a view is described by its base, its mask and its shift. -/
def BankSpec.debugKind (spec : BankSpec) (i : spec.Position) : String :=
  match h : (spec.cell i).kind with
  | .plain => "Plain"
  | .masked mask => "Masked(" ++ Text.hex mask.toNat ++ ")"
  | .readOnly => "ReadOnly"
  | .view base mask =>
    "Linked(" ++ (spec.cell (spec.basePosition i base (spec.base_lt h))).name
      ++ ", " ++ Text.hex mask.toNat ++ ", >>" ++ toString (lowestBit mask) ++ ")"

def Bank.debug (b : Bank spec) (i : spec.Position) : String :=
  "Register \x7b name: " ++ Text.quoted (spec.cell i).name
    ++ ", number: " ++ toString (spec.cell i).number
    ++ ", value: " ++ Text.hex (b.read i).toNat
    ++ ", kind: " ++ spec.debugKind i ++ " \x7d"

end ArchState
