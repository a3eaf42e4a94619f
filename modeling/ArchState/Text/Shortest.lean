/-! # Shortest decimals

The decimal of a binary floating-point number is the one with the fewest digits among those
that read back as it, and the nearest of these. It is found in exact integer arithmetic, by
trying the two neighbours of the number on ever finer decimal grids.
-/
namespace ArchState.Text

structure Decimal where
  digits : Nat
  exponent : Int
  deriving DecidableEq, Repr

/-- A positive number and the ends of the interval that rounds to it, in units of
`1 / denominator`. The ends round to it too when `closed` holds. -/
structure RoundingInterval where
  value : Nat
  low : Nat
  high : Nat
  denominator : Nat
  closed : Bool

namespace RoundingInterval

def ofBits (bits : Nat) : RoundingInterval :=
  let field := bits % 0x10000000000000
  let biased := bits / 0x10000000000000 % 0x800
  let significand := if biased = 0 then field else 0x10000000000000 + field
  let scale : Int := Int.ofNat (max biased 1) - 1077
  let unit := 1 <<< scale.toNat
  let below := if field = 0 ∧ biased > 1 then 1 else 2
  { value := 4 * significand * unit
    low := (4 * significand - below) * unit
    high := (4 * significand + 2) * unit
    denominator := 1 <<< (-scale).toNat
    closed := significand % 2 == 0 }

/-- Whether `n` of the grid units `unit` lies in the interval, when its ends are multiplied by
`factor`. -/
def holds (r : RoundingInterval) (factor unit n : Nat) : Bool :=
  if r.closed then r.low * factor ≤ n * unit && n * unit ≤ r.high * factor
  else r.low * factor < n * unit && n * unit < r.high * factor

/-- The decimal on the grid of multiples of `10 ^ exponent` that reads back as the number. Of
two such neighbours the nearer one is taken, and the even one if they are equally near. -/
def onGrid? (r : RoundingInterval) (exponent : Int) : Option Decimal :=
  let factor := Nat.pow 10 (-exponent).toNat
  let unit := r.denominator * Nat.pow 10 exponent.toNat
  let n := r.value * factor / unit
  let twice := 2 * (r.value * factor)
  let middle := (2 * n + 1) * unit
  match r.holds factor unit n, r.holds factor unit (n + 1) with
  | true, false => some ⟨n, exponent⟩
  | false, true => some ⟨n + 1, exponent⟩
  | true, true =>
    if twice < middle ∨ (twice = middle ∧ n % 2 = 0) then some ⟨n, exponent⟩
    else some ⟨n + 1, exponent⟩
  | false, false => none

/-- The least `p` with the number below `10 ^ p`. -/
def magnitude (r : RoundingInterval) : Int :=
  if r.denominator ≤ r.value then ((Nat.toDigits 10 (r.value / r.denominator)).length : Int)
  else
    let places := ((List.range 400).find? fun j => r.denominator ≤ r.value * Nat.pow 10 j).getD 400
    1 - (places : Int)

end RoundingInterval

def Decimal.stripZeros : Nat → Decimal → Decimal
  | 0, d => d
  | fuel + 1, d =>
    if d.digits ≠ 0 ∧ d.digits % 10 = 0 then stripZeros fuel ⟨d.digits / 10, d.exponent + 1⟩
    else d

def shortest (bits : Nat) : Decimal :=
  let r := RoundingInterval.ofBits bits
  let p := r.magnitude
  let found := (List.range 17).findSome? fun n => r.onGrid? (p - 1 - Int.ofNat n)
  (found.getD ⟨0, 0⟩).stripZeros 20

end ArchState.Text
