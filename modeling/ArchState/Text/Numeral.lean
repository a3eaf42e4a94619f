/-! # Numerals

Runs of digits in a base, read from the most significant digit on.
-/
namespace ArchState.Text

def hexDigitValue (c : Char) : Nat :=
  if c.toNat ≤ '9'.toNat then c.toNat - '0'.toNat
  else if c.toNat ≤ 'F'.toNat then c.toNat - 'A'.toNat + 10
  else c.toNat - 'a'.toNat + 10

def isHexDigit (c : Char) : Bool :=
  c.isDigit || ('A' ≤ c && c ≤ 'F') || ('a' ≤ c && c ≤ 'f')

def numeralValue (base : Nat) (digits : List Char) : Nat :=
  digits.foldl (fun n c => n * base + hexDigitValue c) 0

def decimal? (cs : List Char) : Option Nat :=
  if !cs.isEmpty && cs.all Char.isDigit then some (numeralValue 10 cs) else none

def hexadecimal? (cs : List Char) : Option Nat :=
  if !cs.isEmpty && cs.all isHexDigit then some (numeralValue 16 cs) else none

theorem numeralValue_append_singleton (base : Nat) (digits : List Char) (c : Char) :
    numeralValue base (digits ++ [c]) = numeralValue base digits * base + hexDigitValue c := by
  simp [numeralValue]

end ArchState.Text
