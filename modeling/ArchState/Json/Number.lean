import ArchState.Text.Shortest

/-! # Numbers of JSON texts

A number without a point and an exponent is an integer if it fits into 64 bits; every other
number is a binary floating-point number, and so is a negative zero.
-/
namespace ArchState.Json

inductive Number where
  | natural (n : Nat)
  | negative (n : Int)
  | floating (x : Float)

namespace Number

/-- The text of a floating-point number: positional from `1e-5` up to below `1e16`, otherwise
with an exponent and its sign, and with a point whenever it is positional. -/
def floatText (x : Float) : String :=
  let bits := x.toBits.toNat
  let sign := if bits / 0x8000000000000000 = 1 then "-" else ""
  let magnitude := bits % 0x8000000000000000
  if magnitude = 0 then sign ++ "0.0"
  else
    let d := Text.shortest magnitude
    let digits := Nat.toDigits 10 d.digits
    let length : Int := digits.length
    let point := length + d.exponent
    let zeros (n : Int) := List.replicate n.toNat '0'
    let body : List Char :=
      if 0 ≤ d.exponent ∧ point ≤ 16 then digits ++ zeros d.exponent ++ ['.', '0']
      else if 0 < point ∧ point ≤ 16 then
        digits.take point.toNat ++ ['.'] ++ digits.drop point.toNat
      else if -5 < point ∧ point ≤ 0 then ['0', '.'] ++ zeros (-point) ++ digits
      else
        digits.take 1 ++ (if length = 1 then [] else ['.'] ++ digits.drop 1) ++ ['e']
          ++ (if point < 1 then [] else ['+']) ++ (toString (point - 1)).toList
    sign ++ String.ofList body

/-- The floating-point number `significand * 10 ^ exponent`, computed with one rounding for
the significand, one for the power of ten and one for each multiplication or division. None
if the result is too large. -/
def scaled? (significand : Float) (exponent : Int) : Option Float :=
  if exponent.natAbs ≤ 308 then
    let power := Float.ofScientific 1 false exponent.natAbs
    if 0 ≤ exponent then
      let x := significand * power
      if x.isInf then none else some x
    else some (significand / power)
  else if significand == 0.0 then some significand
  else if 0 ≤ exponent then none
  else scaled? (significand / 1e308) (exponent + 308)
termination_by exponent.natAbs
decreasing_by omega

end Number
end ArchState.Json
