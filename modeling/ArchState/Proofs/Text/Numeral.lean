import ArchState.Text.Numeral

/-! # Canonical numerals

A word of decimal digits is the canonical numeral of its value, unless another digit comes after a
leading zero. So no two canonical numerals have the same value.
-/
namespace ArchState.Text
variable {c : Char} {cs : List Char} {n : Nat}

theorem hexDigitValue_of_isDigit (h : c.isDigit = true) :
    hexDigitValue c < 10 ∧ Nat.digitChar (hexDigitValue c) = c := by
  obtain ⟨hlow, hhigh⟩ := Char.isDigit_iff_toNat.mp h
  have hzero : '0'.toNat = 48 := rfl
  have hnine : '9'.toNat = 57 := rfl
  have hvalue : hexDigitValue c = c.toNat - 48 := by rw [hexDigitValue, if_pos hhigh, hzero]
  have hlt : hexDigitValue c < 10 := by omega
  refine ⟨hlt, Char.toNat_inj.mp ?_⟩
  rw [Nat.toNat_digitChar_of_lt_ten hlt]
  omega

theorem hexDigitValue_digitChar : ∀ d < 10, hexDigitValue (Nat.digitChar d) = d := by decide

/-- Digits are written behind a numeral one after the other. -/
theorem toDigits_append_eq_foldl (hcs : ∀ c ∈ cs, c.isDigit = true) (hn : 0 < n) :
    Nat.toDigits 10 n ++ cs =
      Nat.toDigits 10 (cs.foldl (fun n c => n * 10 + hexDigitValue c) n) := by
  induction cs generalizing n with
  | nil => simp
  | cons c cs ih =>
    obtain ⟨hc, hrest⟩ := List.forall_mem_cons.mp hcs
    obtain ⟨hlt, hchar⟩ := hexDigitValue_of_isDigit hc
    have hsingle : [c] = Nat.toDigits 10 (hexDigitValue c) := by
      rw [Nat.toDigits_of_lt_base hlt, hchar]
    calc Nat.toDigits 10 n ++ c :: cs
        = (Nat.toDigits 10 n ++ [c]) ++ cs := by simp
      _ = Nat.toDigits 10 (n * 10 + hexDigitValue c) ++ cs := by
          rw [hsingle, Nat.toDigits_append_toDigits (by decide) hn hlt, Nat.mul_comm]
      _ = Nat.toDigits 10 ((c :: cs).foldl (fun n c => n * 10 + hexDigitValue c) n) :=
          ih hrest (by omega)

theorem toDigits_numeralValue (hcs : ∀ d ∈ c :: cs, d.isDigit = true) (hc : c ≠ '0') :
    Nat.toDigits 10 (numeralValue 10 (c :: cs)) = c :: cs := by
  obtain ⟨hdigit, hrest⟩ := List.forall_mem_cons.mp hcs
  obtain ⟨hlt, hchar⟩ := hexDigitValue_of_isDigit hdigit
  have hpos : 0 < hexDigitValue c := by
    refine Nat.pos_of_ne_zero fun hzero => hc ?_
    rw [← hchar, hzero]
    rfl
  have happend := toDigits_append_eq_foldl hrest hpos
  rw [Nat.toDigits_of_lt_base hlt, hchar] at happend
  rw [numeralValue, List.foldl_cons, Nat.zero_mul, Nat.zero_add, ← happend]
  rfl

theorem numeralValue_toDigits (n : Nat) : numeralValue 10 (Nat.toDigits 10 n) = n := by
  induction n using Nat.strongRecOn with
  | ind n ih =>
    rw [Nat.toDigits_eq_if (by decide)]
    by_cases hn : n < 10
    · rw [if_pos hn]
      simpa [numeralValue] using hexDigitValue_digitChar n hn
    · have hdiv : n / 10 < n := by omega
      have hmod : n % 10 < 10 := by omega
      rw [if_neg hn, numeralValue_append_singleton, ih _ hdiv, hexDigitValue_digitChar _ hmod]
      omega

/-- A numeral begins with a zero only if it is the numeral of zero. -/
theorem head?_toDigits (hn : 0 < n) : (Nat.toDigits 10 n).head? ≠ some '0' := by
  induction n using Nat.strongRecOn with
  | ind n ih =>
    rw [Nat.toDigits_eq_if (by decide)]
    by_cases hlt : n < 10
    · have hdigit : ∀ d < 10, 0 < d → Nat.digitChar d ≠ '0' := by decide
      rw [if_pos hlt, List.head?_cons]
      exact fun h => hdigit n hlt hn (Option.some.inj h)
    · obtain ⟨c, cs, hcs⟩ :=
        List.exists_cons_of_ne_nil (Nat.toDigits_ne_nil (n := n / 10) (b := 10))
      have hhead := ih (n / 10) (by omega) (by omega)
      rw [hcs] at hhead
      rw [if_neg hlt, hcs]
      exact hhead

theorem decimal?_eq_some_iff :
    decimal? cs = some n ↔ cs ≠ [] ∧ (∀ c ∈ cs, c.isDigit = true) ∧ numeralValue 10 cs = n := by
  rw [decimal?]
  cases cs <;> simp [and_assoc]

/-- The canonical numeral of a number, among the words of digits that have this value, is the one
without a zero before other digits. -/
theorem eq_toDigits_iff :
    cs = Nat.toDigits 10 n ↔ decimal? cs = some n ∧ ¬ (1 < cs.length ∧ cs.head? = some '0') := by
  rw [decimal?_eq_some_iff]
  constructor
  · rintro rfl
    have hdigits : ∀ c ∈ Nat.toDigits 10 n, c.isDigit = true := fun c hc =>
      Nat.isDigit_of_mem_toDigits (by decide) (by decide) hc
    refine ⟨⟨Nat.toDigits_ne_nil, hdigits, numeralValue_toDigits n⟩, ?_⟩
    rintro ⟨hlength, hzero⟩
    rcases Nat.eq_zero_or_pos n with rfl | hn
    · simp at hlength
    · exact head?_toDigits hn hzero
  · rintro ⟨⟨hne, hdigits, rfl⟩, hlead⟩
    cases cs with
    | nil => exact absurd rfl hne
    | cons c cs =>
      by_cases hc : c = '0'
      · -- only zero itself begins with a zero
        subst hc
        have hnil : cs = [] := by
          cases cs with
          | nil => rfl
          | cons d ds => exact absurd ⟨by simp, rfl⟩ hlead
        subst hnil
        rfl
      · exact (toDigits_numeralValue hdigits hc).symm

end ArchState.Text
