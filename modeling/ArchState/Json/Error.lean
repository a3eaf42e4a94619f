import ArchState.Json.Number
import ArchState.Text.Quoted

/-! # Errors of JSON texts

A text can end too early, be malformed, or hold well-formed values that do not fit what is
expected at their place.
-/
namespace ArchState.Json

inductive Found where
  | null
  | boolean (b : Bool)
  | number (n : Number)
  | text (s : String)
  | sequence
  | map

def Found.describe : Found → String
  | null => "null"
  | boolean b => "boolean `" ++ toString b ++ "`"
  | number (.natural n) => "integer `" ++ toString n ++ "`"
  | number (.negative n) => "integer `" ++ toString n ++ "`"
  | number (.floating x) => "floating point `" ++ Number.floatText x ++ "`"
  | text s => "string " ++ Text.quoted s
  | sequence => "sequence"
  | map => "map"

inductive Mismatch where
  | unknownField (name : String) (known : List String)
  | missingField (name : String)
  | duplicateField (name : String)
  | invalidType (found : Found) (expected : String)
  | invalidValue (found : Found) (expected : String)
  | invalidLength (length : Nat) (record : String) (fields : Nat)
  | noVariant (choice : String)
  | rejected (reason : String)

namespace Mismatch

def alternatives (known : List String) : String :=
  let quote (name : String) := "`" ++ name ++ "`"
  match known with
  | [a] => quote a
  | [a, b] => quote a ++ " or " ++ quote b
  | names => "one of " ++ ", ".intercalate (names.map quote)

def message : Mismatch → String
  | unknownField name known =>
    "unknown field `" ++ name ++ "`, expected " ++ alternatives known
  | missingField name => "missing field `" ++ name ++ "`"
  | duplicateField name => "duplicate field `" ++ name ++ "`"
  | invalidType found expected =>
    "invalid type: " ++ found.describe ++ ", expected " ++ expected
  | invalidValue found expected =>
    "invalid value: " ++ found.describe ++ ", expected " ++ expected
  | invalidLength length record fields =>
    "invalid length " ++ toString length ++ ", expected " ++ record ++ " with "
      ++ toString fields ++ " elements"
  | noVariant choice => "data did not match any variant of untagged enum " ++ choice
  | rejected reason => reason

end Mismatch

inductive Error where
  | ended
  | malformed
  | mismatch (m : Mismatch)

def Error.category : Error → String
  | ended => "eof"
  | malformed => "syntax"
  | mismatch _ => "data"

end ArchState.Json
