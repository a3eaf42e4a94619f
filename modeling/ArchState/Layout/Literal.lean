import ArchState.Layout.Error
import ArchState.Text.Blank
import ArchState.Text.Numeral

/-! # Address literals

An address is written as a number or as text. Text is read without the blanks at its ends
and without any underscore; after `0x` or `0X` the digits are hexadecimal, otherwise
decimal, and one plus sign may stand before them.
-/
namespace ArchState

inductive AddressLiteral where
  | number (n : UInt32)
  | text (s : String)
  deriving DecidableEq, Repr

namespace AddressLiteral

def digits (s : String) : List Char := (Text.trim s.toList).filter (· != '_')

def dropPlus : List Char → List Char
  | '+' :: cs => cs
  | cs => cs

/-- The value of what is left of a text once blanks and underscores are gone. -/
def value? : List Char → Option Nat
  | '0' :: 'x' :: cs => Text.hexadecimal? (dropPlus cs)
  | '0' :: 'X' :: cs => Text.hexadecimal? (dropPlus cs)
  | cs => Text.decimal? (dropPlus cs)

def resolve : AddressLiteral → Except LayoutError UInt32
  | number n => .ok n
  | text s =>
    match value? (digits s) with
    | some n => if n < 0x100000000 then .ok (UInt32.ofNat n) else .error (.invalidAddress s)
    | none => .error (.invalidAddress s)

end AddressLiteral
end ArchState
