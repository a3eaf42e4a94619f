import ArchState.Text.Hex
import ArchState.Text.Shown

/-! # Quoted text

A text between double quotes. A quote, a backslash, a tab, a line end, a carriage return and
NUL have escapes of two characters; any other character that is not shown as itself is
written as its code point in braces.
-/
namespace ArchState.Text

def escape (c : Char) : List Char :=
  match c with
  | '"' => ['\\', '"']
  | '\\' => ['\\', '\\']
  | '\t' => ['\\', 't']
  | '\n' => ['\\', 'n']
  | '\r' => ['\\', 'r']
  | '\x00' => ['\\', '0']
  | c =>
    if isShown c then [c]
    else ['\\', 'u', '\x7b'] ++ Nat.toDigits 16 c.toNat ++ ['\x7d']

def quoted (s : String) : String :=
  String.ofList (['"'] ++ s.toList.flatMap escape ++ ['"'])

end ArchState.Text
