import ArchState.Json.Reader

/-! # Reading numbers

Digits count as long as the number they make fits into 64 bits; the digits after that only
move the point.
-/
namespace ArchState.Json

/-- A number as far as its digits were read: those that count, and how many places the point
has to move to the right. -/
structure Significand where
  value : Nat
  places : Int
  full : Bool

namespace Significand

def addWhole (s : Significand) (c : Char) : Significand :=
  let value := s.value * 10 + Text.hexDigitValue c
  if s.full ∨ 0x10000000000000000 ≤ value then { s with places := s.places + 1, full := true }
  else { s with value }

def addFraction (s : Significand) (c : Char) : Significand :=
  let value := s.value * 10 + Text.hexDigitValue c
  if s.full ∨ 0x10000000000000000 ≤ value then { s with full := true }
  else { s with value, places := s.places - 1 }

end Significand

namespace Reader

def scaled (positive : Bool) (value : Nat) (exponent : Int) : Reader Number :=
  match Number.scaled? (UInt64.ofNat value).toFloat exponent with
  | some x => return .floating (if positive then x else -x)
  | none => throw .malformed

def exponent (positive : Bool) (s : Significand) : Reader Number := do
  skip
  let upwards ← do
    match ← peek with
    | some '+' =>
      skip
      pure true
    | some '-' =>
      skip
      pure false
    | _ => pure true
  let ds ← digits
  if ds.isEmpty then
    match ← peek with
    | none => throw .ended
    | some _ => throw .malformed
  let n : Int := Text.numeralValue 10 ds
  if 0x80000000 ≤ n then
    if s.value ≠ 0 ∧ upwards then throw .malformed
    else return .floating (if positive then 0.0 else -0.0)
  else scaled positive s.value (if upwards then s.places + n else s.places - n)

def fraction (positive : Bool) (s : Significand) : Reader Number := do
  skip
  let ds ← digits
  if ds.isEmpty then
    match ← peek with
    | none => throw .ended
    | some _ => throw .malformed
  let s := ds.foldl Significand.addFraction { s with full := false }
  match ← peek with
  | some 'e' | some 'E' => exponent positive s
  | _ => scaled positive s.value s.places

/-- An integer in 64 bits, or a floating-point number for a negative one that is zero or does
not fit. -/
def integer (positive : Bool) (n : Nat) : Number :=
  if positive then .natural n
  else if 0 < n ∧ n ≤ 0x8000000000000000 then .negative (-(n : Int))
  else .floating (-(UInt64.ofNat n).toFloat)

def unsigned (positive : Bool) : Reader Number := do
  let ds ← digits
  match ds with
  | [] =>
    match ← peek with
    | none => throw .ended
    | some _ => throw .malformed
  | '0' :: _ :: _ => throw .malformed
  | ds =>
    let s := ds.foldl Significand.addWhole ⟨0, 0, false⟩
    match ← peek with
    | some '.' => fraction positive s
    | some 'e' | some 'E' => exponent positive s
    | _ => if s.full then scaled positive s.value s.places else return integer positive s.value

def number : Reader Number := do
  match ← peek with
  | some '-' =>
    skip
    unsigned false
  | _ => unsigned true

end Reader
end ArchState.Json
