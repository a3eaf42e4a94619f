/-! # Hexadecimal text

Addresses are written with exactly eight digits, other words with as many digits as they
need. Digits are lower case and follow `0x`.
-/
namespace ArchState.Text

def hexDigit (n : Nat) : Char :=
  if n < 10 then Char.ofNat ('0'.toNat + n) else Char.ofNat ('a'.toNat + (n - 10))

/-- The lowest `width` hexadecimal digits of `n`, most significant first. -/
def hexDigits : Nat → Nat → List Char
  | 0, _ => []
  | width + 1, n => hexDigits width (n / 16) ++ [hexDigit (n % 16)]

@[simp] theorem hexDigits_length (width n : Nat) : (hexDigits width n).length = width := by
  induction width generalizing n with
  | zero => rfl
  | succ width ih => simp [hexDigits, ih]

def address (a : UInt32) : String := "0x" ++ String.ofList (hexDigits 8 a.toNat)

def hex (n : Nat) : String :=
  match (hexDigits 16 n).dropWhile (· == '0') with
  | [] => "0x0"
  | digits => "0x" ++ String.ofList digits

end ArchState.Text
