import ArchState.Proofs.Text.Numeral
import Mathlib.Data.List.Forall2
import Mathlib.Data.Nat.Digits.Lemmas

/-! # Digits of a base

The digits of a base are the decimal digits and, in base sixteen, letters of either case. A run of
them has the value that their places give it. Reading digits accepts exactly the runs that are not
empty.
-/
namespace ArchState.Text

inductive NumeralBase where
  | decimal
  | hexadecimal
  deriving DecidableEq, Repr

namespace NumeralBase
variable {b : NumeralBase} {c : Char} {cs : List Char} {d n : Nat} {values : List Nat}

def radix : NumeralBase → Nat
  | decimal => 10
  | hexadecimal => 16

/-- Whether a character is the digit of value `d`. -/
def IsDigit (b : NumeralBase) (c : Char) (d : Nat) : Prop :=
  d < b.radix ∧ (c = Nat.digitChar d ∨ c = (Nat.digitChar d).toUpper)

def accepts : NumeralBase → Char → Bool
  | decimal => Char.isDigit
  | hexadecimal => isHexDigit

def read? : NumeralBase → List Char → Option Nat
  | decimal => decimal?
  | hexadecimal => hexadecimal?

/-- Hexadecimal digits are ASCII characters, so that they can be looked at one by one. -/
theorem toNat_lt_of_isHexDigit (h : isHexDigit c = true) : c.toNat < 103 := by
  have hle (x : Char) (hx : x.toNat ≤ 102) (h : c ≤ x) : c.toNat < 103 := by
    have : c.toNat ≤ x.toNat := UInt32.le_iff_toNat_le.mp h
    omega
  simp only [isHexDigit, Bool.or_eq_true, Bool.and_eq_true, decide_eq_true_eq] at h
  rcases h with (h | ⟨-, h⟩) | ⟨-, h⟩
  · have := (Char.isDigit_iff_toNat.mp h).2
    have hnine : '9'.toNat = 57 := rfl
    omega
  · exact hle 'F' (by decide) h
  · exact hle 'f' (by decide) h

theorem isDigit_hexadecimal (h : isHexDigit c = true) :
    hexadecimal.IsDigit c (hexDigitValue c) := by
  have htable : ∀ k < 103, isHexDigit (Char.ofNat k) = true →
      hexDigitValue (Char.ofNat k) < 16 ∧
        (Char.ofNat k = Nat.digitChar (hexDigitValue (Char.ofNat k)) ∨
          Char.ofNat k = (Nat.digitChar (hexDigitValue (Char.ofNat k))).toUpper) := by decide
  have := htable c.toNat (toNat_lt_of_isHexDigit h)
  rw [Char.ofNat_toNat] at this
  exact this h

theorem isDigit_iff : b.IsDigit c d ↔ b.accepts c = true ∧ hexDigitValue c = d := by
  constructor
  · rintro ⟨hd, hc⟩
    cases b with
    | decimal =>
      have htable : ∀ d < 10, (Nat.digitChar d).isDigit = true ∧
          hexDigitValue (Nat.digitChar d) = d ∧ (Nat.digitChar d).toUpper = Nat.digitChar d := by
        decide
      obtain ⟨hdigit, hvalue, hupper⟩ := htable d hd
      rw [hupper, or_self] at hc
      subst hc
      exact ⟨hdigit, hvalue⟩
    | hexadecimal =>
      have htable : ∀ d < 16, (isHexDigit (Nat.digitChar d) = true ∧
          hexDigitValue (Nat.digitChar d) = d) ∧
          isHexDigit (Nat.digitChar d).toUpper = true ∧
            hexDigitValue (Nat.digitChar d).toUpper = d := by decide
      obtain ⟨hlower, hupper⟩ := htable d hd
      rcases hc with rfl | rfl
      · exact hlower
      · exact hupper
  · rintro ⟨hc, rfl⟩
    cases b with
    | decimal =>
      obtain ⟨hlt, hchar⟩ := hexDigitValue_of_isDigit hc
      exact ⟨hlt, .inl hchar.symm⟩
    | hexadecimal => exact isDigit_hexadecimal hc

theorem forall₂_isDigit_iff : List.Forall₂ b.IsDigit cs values ↔
    (∀ c ∈ cs, b.accepts c = true) ∧ cs.map hexDigitValue = values := by
  have hdigit : b.IsDigit = fun c d => b.accepts c = true ∧ hexDigitValue c = d := by
    funext c d
    exact propext isDigit_iff
  rw [hdigit, List.forall₂_and_left, ← List.forall₂_eq_eq_eq, List.forall₂_map_left_iff]

end NumeralBase

/-- The value of digits is what their places make of them, the last one being the place of ones. -/
theorem numeralValue_eq_ofDigits (base : Nat) (cs : List Char) :
    numeralValue base cs = Nat.ofDigits base (cs.map hexDigitValue).reverse := by
  rw [numeralValue, Nat.ofDigits_eq_foldr, List.foldr_reverse, List.foldl_map]
  congr 1
  funext n c
  rw [Nat.mul_comm, Nat.add_comm]
  rfl

namespace NumeralBase
variable {b : NumeralBase} {cs : List Char} {n : Nat}

theorem read?_eq_some_iff : b.read? cs = some n ↔ cs ≠ [] ∧ ∃ values,
    List.Forall₂ b.IsDigit cs values ∧ n = Nat.ofDigits b.radix values.reverse := by
  have hread : b.read? cs = some n ↔
      cs ≠ [] ∧ (∀ c ∈ cs, b.accepts c = true) ∧ numeralValue b.radix cs = n := by
    cases b with
    | decimal => exact decimal?_eq_some_iff
    | hexadecimal =>
      simp only [read?, hexadecimal?, accepts, radix]
      cases cs <;> simp [and_assoc]
  simp only [hread, forall₂_isDigit_iff, numeralValue_eq_ofDigits]
  constructor
  · rintro ⟨hne, hall, rfl⟩
    exact ⟨hne, _, ⟨hall, rfl⟩, rfl⟩
  · rintro ⟨hne, _, ⟨hall, rfl⟩, rfl⟩
    exact ⟨hne, hall, rfl⟩

end NumeralBase
end ArchState.Text
