import ArchState.Text.Hex
import ArchState.Text.Numeral

/-! # Addresses in text

An address is written as `0x` and the eight hexadecimal digits of its value, so it can be read back
from its text.
-/
namespace ArchState.Text

/-- Whether a text writes an address down: `0x`, and then eight digits in lower case that have the
value of the address. -/
def WritesAddress (s : String) (a : UInt32) : Prop :=
  ∃ digits : List Char, s.toList = '0' :: 'x' :: digits ∧ digits.length = 8 ∧
    (∀ c ∈ digits, c ∈ "0123456789abcdef".toList) ∧ numeralValue 16 digits = a.toNat

/-- The address in a text that begins with `0x`. -/
def readAddress (s : String) : UInt32 := UInt32.ofNat (numeralValue 16 (s.toList.drop 2))

theorem hexDigit_mem : ∀ d < 16, hexDigit d ∈ "0123456789abcdef".toList := by decide

theorem hexDigitValue_hexDigit : ∀ d < 16, hexDigitValue (hexDigit d) = d := by decide

theorem mem_hexDigits {width n : Nat} {c : Char} (h : c ∈ hexDigits width n) :
    c ∈ "0123456789abcdef".toList := by
  induction width generalizing n with
  | zero => exact nomatch h
  | succ width ih =>
    rw [hexDigits, List.mem_append, List.mem_singleton] at h
    rcases h with h | rfl
    · exact ih h
    · exact hexDigit_mem _ (Nat.mod_lt n (by decide))

theorem numeralValue_hexDigits {width n : Nat} (h : n < Nat.pow 16 width) :
    numeralValue 16 (hexDigits width n) = n := by
  induction width generalizing n with
  | zero =>
    obtain rfl : n = 0 := Nat.lt_one_iff.mp h
    rfl
  | succ width ih =>
    have hdiv : n / 16 < Nat.pow 16 width := Nat.div_lt_of_lt_mul (Nat.mul_comm _ 16 ▸ h)
    rw [hexDigits, numeralValue_append_singleton, ih hdiv,
      hexDigitValue_hexDigit _ (Nat.mod_lt n (by decide))]
    omega

theorem writesAddress_address (a : UInt32) : WritesAddress (address a) a := by
  refine ⟨hexDigits 8 a.toNat, ?_, hexDigits_length 8 _, fun c => mem_hexDigits,
    numeralValue_hexDigits a.toNat_lt⟩
  simp [address]

theorem WritesAddress.readAddress_eq {s : String} {a : UInt32} (h : WritesAddress s a) :
    readAddress s = a := by
  obtain ⟨digits, hs, -, -, hvalue⟩ := h
  rw [readAddress, hs, List.drop_succ_cons, List.drop_succ_cons, List.drop_zero, hvalue,
    UInt32.ofNat_toNat]

end ArchState.Text
