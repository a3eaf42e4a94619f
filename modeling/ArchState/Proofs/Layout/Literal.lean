import ArchState.Layout.Literal
import ArchState.Proofs.Text.Digits
import Mathlib.Data.List.TakeWhile

/-! # The grammar of address literals

A text is the literal of an address if it writes the address down: without the blanks at its ends,
and after that without its underscores, it is the mark of a base, at most one plus sign and digits
of this base. Every other text is refused as it was given.
-/
namespace ArchState

namespace Text
variable {cs core : List Char}

/-- Whether `core` is what remains without the blanks at both ends. -/
def Trims (cs core : List Char) : Prop :=
  ∃ before after, cs = before ++ core ++ after ∧ (∀ c ∈ before, isBlank c = true) ∧
    (∀ c ∈ after, isBlank c = true) ∧ (∀ c ∈ core.head?, isBlank c = false) ∧
    ∀ c ∈ core.getLast?, isBlank c = false

theorem dropWhile_of_head? (h : ∀ c ∈ cs.head?, isBlank c = false) :
    cs.dropWhile isBlank = cs := by
  cases cs with
  | nil => rfl
  | cons c cs => rw [List.dropWhile_cons_of_neg (by simpa using h)]

theorem head?_dropWhile (cs : List Char) :
    ∀ c ∈ (cs.dropWhile isBlank).head?, isBlank c = false := by
  intro c hc
  have h := List.head?_dropWhile_not isBlank cs
  rw [hc] at h
  exact h

theorem trim_of_trims (h : Trims cs core) : trim cs = core := by
  obtain ⟨before, after, rfl, hbefore, hafter, hhead, hlast⟩ := h
  rw [trim, List.append_assoc, List.dropWhile_append_of_pos hbefore]
  cases core with
  | nil => rw [List.nil_append, List.dropWhile_eq_nil_iff.mpr hafter]; rfl
  | cons c rest =>
    have hstart : ∀ d ∈ (c :: rest ++ after).head?, isBlank d = false := hhead
    have hend : ∀ d ∈ (c :: rest).reverse.head?, isBlank d = false := by
      rw [List.head?_reverse]
      exact hlast
    rw [dropWhile_of_head? hstart, List.reverse_append, List.dropWhile_append_of_pos,
      dropWhile_of_head? hend, List.reverse_reverse]
    exact fun d hd => hafter d (List.mem_reverse.mp hd)

theorem trims_trim (cs : List Char) : Trims cs (trim cs) := by
  have hsplit : cs.dropWhile isBlank =
      trim cs ++ ((cs.dropWhile isBlank).reverse.takeWhile isBlank).reverse := by
    rw [trim, ← List.reverse_append, List.takeWhile_append_dropWhile, List.reverse_reverse]
  refine ⟨cs.takeWhile isBlank, ((cs.dropWhile isBlank).reverse.takeWhile isBlank).reverse, ?_,
    fun c => List.mem_takeWhile_imp, fun c hc => List.mem_takeWhile_imp (List.mem_reverse.mp hc),
    ?_, ?_⟩
  · rw [List.append_assoc, ← hsplit, List.takeWhile_append_dropWhile]
  · intro c hc
    refine head?_dropWhile cs c ?_
    rw [hsplit, List.head?_append, Option.mem_def.mp hc]
    rfl
  · rw [trim, List.getLast?_reverse]
    exact head?_dropWhile _

theorem trims_iff : Trims cs core ↔ trim cs = core :=
  ⟨trim_of_trims, fun h => h ▸ trims_trim cs⟩

namespace NumeralBase
variable {b : NumeralBase} {c : Char} {cs digits : List Char} {values : List Nat} {d n : Nat}

/-- What may stand before the digits to tell their base. -/
def marks : NumeralBase → List (List Char)
  | decimal => [[]]
  | hexadecimal => [['0', 'x'], ['0', 'X']]

/-- Whether characters write a number: a mark of the base, perhaps a plus sign, and digits. -/
def Writes (b : NumeralBase) (cs : List Char) (n : Nat) : Prop :=
  ∃ mark ∈ b.marks, ∃ sign ∈ [[], ['+']], ∃ digits values, cs = mark ++ sign ++ digits ∧
    digits ≠ [] ∧ List.Forall₂ b.IsDigit digits values ∧ n = Nat.ofDigits b.radix values.reverse

/-- Whether a character is neither a minus sign nor a blank. -/
def isPlain (c : Char) : Bool := c != '-' && !isBlank c

theorem isPlain_iff : isPlain c = true ↔ c ≠ '-' ∧ isBlank c = false := by simp [isPlain]

theorem plain_of_isDigit (h : b.IsDigit c d) : c ≠ '+' ∧ isPlain c = true := by
  have htable : ∀ d < 16, (Nat.digitChar d ≠ '+' ∧ isPlain (Nat.digitChar d) = true) ∧
      (Nat.digitChar d).toUpper ≠ '+' ∧ isPlain (Nat.digitChar d).toUpper = true := by decide
  have hd : d < 16 := Nat.lt_of_lt_of_le h.1 (by cases b <;> decide)
  obtain ⟨hlower, hupper⟩ := htable d hd
  rcases h.2 with rfl | rfl
  · exact hlower
  · exact hupper

theorem plain_of_digits (h : List.Forall₂ b.IsDigit digits values) (hc : c ∈ digits) :
    c ≠ '+' ∧ isPlain c = true := by
  induction h with
  | nil => exact nomatch hc
  | cons hdigit _ ih =>
    rcases List.mem_cons.mp hc with rfl | hc
    · exact plain_of_isDigit hdigit
    · exact ih hc

theorem plain_of_writes (h : b.Writes cs n) (hc : c ∈ cs) : isPlain c = true := by
  obtain ⟨mark, hmark, sign, hsign, digits, values, rfl, -, hdigits, -⟩ := h
  have hmarks : ∀ mark ∈ b.marks, mark.all isPlain = true := by cases b <;> decide
  have hsigns : ∀ sign ∈ [[], ['+']], sign.all isPlain = true := by decide
  simp only [List.mem_append] at hc
  rcases hc with (hc | hc) | hc
  · exact List.all_eq_true.mp (hmarks mark hmark) c hc
  · exact List.all_eq_true.mp (hsigns sign hsign) c hc
  · exact (plain_of_digits hdigits hc).2

end NumeralBase
end Text

namespace AddressLiteral
open Text Text.NumeralBase
variable {b : NumeralBase} {cs : List Char} {n : Nat}

/-- Digits do not begin with a plus sign, so the one that is dropped is the sign. -/
theorem dropPlus_eq_iff {digits : List Char} {values : List Nat}
    (h : List.Forall₂ b.IsDigit digits values) : dropPlus cs = digits ↔
      ∃ sign ∈ [[], ['+']], cs = sign ++ digits := by
  have hplus (rest : List Char) : digits ≠ '+' :: rest := by
    rintro rfl
    exact (plain_of_digits h List.mem_cons_self).1 rfl
  simp only [List.mem_cons, List.not_mem_nil, or_false, exists_eq_or_imp, exists_eq_left,
    List.nil_append, List.singleton_append]
  unfold dropPlus
  split
  · rename_i rest
    constructor
    · rintro rfl
      exact .inr rfl
    · rintro (h' | h')
      · exact absurd h'.symm (hplus rest)
      · exact (List.cons.inj h').2
  · rename_i hnone
    constructor
    · exact .inl
    · rintro (rfl | rfl)
      · rfl
      · exact absurd rfl (hnone digits)

theorem writes_iff : b.Writes cs n ↔
    ∃ mark ∈ b.marks, ∃ rest, cs = mark ++ rest ∧ b.read? (dropPlus rest) = some n := by
  simp only [read?_eq_some_iff]
  constructor
  · rintro ⟨mark, hmark, sign, hsign, digits, values, rfl, hne, hdigits, hn⟩
    have hdrop : dropPlus (sign ++ digits) = digits :=
      (dropPlus_eq_iff hdigits).mpr ⟨sign, hsign, rfl⟩
    exact ⟨mark, hmark, sign ++ digits, List.append_assoc _ _ _, hdrop.symm ▸ hne, values,
      hdrop.symm ▸ hdigits, hn⟩
  · rintro ⟨mark, hmark, rest, rfl, hne, values, hdigits, hn⟩
    obtain ⟨sign, hsign, hrest⟩ := (dropPlus_eq_iff hdigits).mp rfl
    refine ⟨mark, hmark, sign, hsign, dropPlus rest, values, ?_, hne, hdigits, hn⟩
    rw [List.append_assoc, ← hrest]

theorem writes_decimal_iff : decimal.Writes cs n ↔ decimal? (dropPlus cs) = some n := by
  rw [writes_iff]
  simp only [marks, List.mem_singleton, exists_eq_left, List.nil_append, exists_eq_left', read?]

theorem writes_hexadecimal_iff : hexadecimal.Writes cs n ↔
    ∃ rest, (cs = '0' :: 'x' :: rest ∨ cs = '0' :: 'X' :: rest) ∧
      hexadecimal? (dropPlus rest) = some n := by
  rw [writes_iff]
  simp only [marks, List.mem_cons, List.not_mem_nil, or_false, exists_eq_left, List.cons_append,
    List.nil_append, read?, or_and_right, exists_or]

/-- A text that begins like a hexadecimal number is not a decimal one, since no letter is a decimal
digit. -/
theorem value?_eq_some_iff : value? cs = some n ↔ ∃ b : NumeralBase, b.Writes cs n := by
  have hbase : (∃ b : NumeralBase, b.Writes cs n) ↔
      decimal.Writes cs n ∨ hexadecimal.Writes cs n := by
    constructor
    · rintro ⟨_ | _, h⟩
      · exact .inl h
      · exact .inr h
    · rintro (h | h)
      · exact ⟨_, h⟩
      · exact ⟨_, h⟩
  rw [hbase, writes_decimal_iff, writes_hexadecimal_iff]
  unfold value?
  split
  · rename_i rest
    have hdecimal : decimal? (dropPlus ('0' :: 'x' :: rest)) = none := rfl
    simp [hdecimal]
  · rename_i rest
    have hdecimal : decimal? (dropPlus ('0' :: 'X' :: rest)) = none := rfl
    simp [hdecimal]
  · rename_i hlower hupper
    constructor
    · exact .inl
    · rintro (h | ⟨rest, h | h, -⟩)
      · exact h
      · exact absurd h (hlower rest)
      · exact absurd h (hupper rest)

/-- What remains of a text: the blanks at its ends are taken away first and then all underscores. -/
def Remains (s : String) (cs : List Char) : Prop :=
  ∃ core, Trims s.toList core ∧ cs = core.filter (· != '_')

/-- Whether a text is a literal of this number. -/
def Denotes (s : String) (n : Nat) : Prop := ∃ cs, Remains s cs ∧ ∃ b : NumeralBase, b.Writes cs n

/-- Whether a text renders a number in a base: the mark, perhaps a plus sign, any number of zeros
and the digits of the number, with underscores anywhere in it and blanks around it. -/
def Renders (b : NumeralBase) (s : String) (n : Nat) : Prop :=
  ∃ before body after, s.toList = before ++ body ++ after ∧ (∀ c ∈ before, isBlank c = true) ∧
    (∀ c ∈ after, isBlank c = true) ∧ ∃ mark ∈ b.marks, ∃ sign ∈ [[], ['+']], ∃ digits zeros,
      body.filter (· != '_') = mark ++ sign ++ digits ∧ digits ≠ [] ∧
      List.Forall₂ b.IsDigit digits (List.replicate zeros 0 ++ (Nat.digits b.radix n).reverse)

variable {s : String} {a : UInt32} {e : LayoutError}

theorem remains_iff : Remains s cs ↔ digits s = cs := by
  simp only [Remains, trims_iff, exists_eq_left', digits]
  exact eq_comm

theorem denotes_iff : Denotes s n ↔ value? (digits s) = some n := by
  simp only [Denotes, remains_iff, exists_eq_left', value?_eq_some_iff]

theorem resolve_of_denotes (h : Denotes s a.toNat) : (text s).resolve = .ok a := by
  rw [resolve, denotes_iff.mp h]
  simp only [if_pos a.toNat_lt, UInt32.ofNat_toNat]

theorem resolve_of_not_denotes (h : ∀ a : UInt32, ¬ Denotes s a.toNat) :
    (text s).resolve = .error (.invalidAddress s) := by
  rw [resolve]
  cases hvalue : value? (digits s) with
  | none => rfl
  | some n =>
    refine if_neg fun hn => h (UInt32.ofNat n) ?_
    rw [UInt32.toNat_ofNat_of_lt' hn]
    exact denotes_iff.mpr hvalue

theorem resolve_text_eq_ok_iff : (text s).resolve = .ok a ↔ Denotes s a.toNat := by
  refine ⟨fun h => ?_, resolve_of_denotes⟩
  by_cases hs : ∃ a : UInt32, Denotes s a.toNat
  · obtain ⟨a', ha'⟩ := hs
    rw [resolve_of_denotes ha'] at h
    exact Except.ok.inj h ▸ ha'
  · rw [resolve_of_not_denotes (not_exists.mp hs)] at h
    cases h

theorem resolve_text_eq_error_iff :
    (text s).resolve = .error e ↔ e = .invalidAddress s ∧ ∀ a : UInt32, ¬ Denotes s a.toNat := by
  constructor
  · intro h
    have hs : ∀ a : UInt32, ¬ Denotes s a.toNat := by
      intro a ha
      cases h.symm.trans (resolve_of_denotes ha)
    rw [resolve_of_not_denotes hs] at h
    exact ⟨(Except.error.inj h).symm, hs⟩
  · rintro ⟨rfl, hs⟩
    exact resolve_of_not_denotes hs

theorem writes_unique {b' : NumeralBase} {m : Nat} (hn : b.Writes cs n) (hm : b'.Writes cs m) :
    n = m :=
  Option.some.inj ((value?_eq_some_iff.mpr ⟨b, hn⟩).symm.trans (value?_eq_some_iff.mpr ⟨b', hm⟩))

/-- What remains of a text and is no number, or one that is too large, is no literal. -/
inductive Malformed (cs : List Char) : Prop
  | bare : cs ∈ [[], ['+'], ['0', 'x'], ['0', 'X'], ['0', 'x', '+'], ['0', 'X', '+']] → Malformed cs
  | minus : '-' ∈ cs → Malformed cs
  | blank (c : Char) : c ∈ cs → isBlank c = true → Malformed cs
  | tooLarge (b : NumeralBase) (n : Nat) : b.Writes cs n → 0x100000000 ≤ n → Malformed cs

theorem resolve_of_malformed (h : Remains s cs) (hcs : Malformed cs) :
    (text s).resolve = .error (.invalidAddress s) := by
  refine resolve_of_not_denotes fun a ha => ?_
  obtain ⟨cs', hcs', b, hb⟩ := ha
  obtain rfl := (remains_iff.mp h).symm.trans (remains_iff.mp hcs')
  cases hcs with
  | bare hbare =>
    have hnone : ∀ cs ∈ [[], ['+'], ['0', 'x'], ['0', 'X'], ['0', 'x', '+'], ['0', 'X', '+']],
        value? cs = none := by decide
    cases (hnone cs hbare).symm.trans (value?_eq_some_iff.mpr ⟨b, hb⟩)
  | minus hminus => exact (isPlain_iff.mp (plain_of_writes hb hminus)).1 rfl
  | blank c hc hblank => cases hblank.symm.trans (isPlain_iff.mp (plain_of_writes hb hc)).2
  | tooLarge b' n hn hle =>
    have hlt := a.toNat_lt
    rw [writes_unique hb hn] at hlt
    exact absurd hlt (Nat.not_lt.mpr hle)

/-- The body of a rendering has no blanks, so nothing of it is taken away with those around it. -/
theorem denotes_of_renders (h : Renders b s n) : Denotes s n := by
  obtain ⟨before, body, after, hs, hbefore, hafter, mark, hmark, sign, hsign, digits, zeros, hbody,
    hne, hdigits⟩ := h
  have hvalue : n = Nat.ofDigits b.radix
      (List.replicate zeros 0 ++ (Nat.digits b.radix n).reverse).reverse := by
    rw [List.reverse_append, List.reverse_reverse, List.reverse_replicate,
      Nat.ofDigits_append_replicate_zero, Nat.ofDigits_digits]
  have hwrites : b.Writes (body.filter (· != '_')) n :=
    ⟨mark, hmark, sign, hsign, digits, _, hbody, hne, hdigits, hvalue⟩
  have hblank : ∀ c ∈ body, isBlank c = false := by
    intro c hc
    by_cases hscore : c = '_'
    · subst hscore
      decide
    · have hkept : c ∈ body.filter (· != '_') := List.mem_filter.mpr ⟨hc, bne_iff_ne.mpr hscore⟩
      exact (isPlain_iff.mp (plain_of_writes hwrites hkept)).2
  exact ⟨_, ⟨body, ⟨before, after, hs, hbefore, hafter,
    fun c hc => hblank c (List.mem_of_mem_head? hc),
    fun c hc => hblank c (List.mem_of_mem_getLast? hc)⟩, rfl⟩, b, hwrites⟩

/-- A text resolves to an address exactly if it is a literal of it, and it is refused with an error
that names it if it is a literal of none: so if nothing but the mark or the sign remains of it, if
there is a minus sign or a blank in what remains, or if this is a number of more than 32 bits. Every
rendering of an address resolves to it. -/
theorem literals_follow_grammar (s : String) :
    (∀ a : UInt32, (text s).resolve = .ok a ↔ Denotes s a.toNat) ∧
    (∀ e, (text s).resolve = .error e ↔
      e = .invalidAddress s ∧ ∀ a : UInt32, ¬ Denotes s a.toNat) ∧
    (∀ cs, Remains s cs → Malformed cs → (text s).resolve = .error (.invalidAddress s)) ∧
    ∀ (b : NumeralBase) (a : UInt32), Renders b s a.toNat → (text s).resolve = .ok a :=
  ⟨fun _ => resolve_text_eq_ok_iff, fun _ => resolve_text_eq_error_iff,
    fun _ => resolve_of_malformed, fun _ _ h => resolve_of_denotes (denotes_of_renders h)⟩

/-- Underscores may split the mark of a base from its zero and blanks of all kinds may be around,
but an underscore keeps a blank behind it from being taken away. -/
theorem blanks_and_underscores_in_literals :
    (text "\u00a0 _0_X+00_fF_\t").resolve = .ok 255 ∧
      (text "_ 5").resolve = .error (.invalidAddress "_ 5") := by
  obtain ⟨-, -, -, hrenders⟩ := literals_follow_grammar "\u00a0 _0_X+00_fF_\t"
  obtain ⟨-, -, hmalformed, -⟩ := literals_follow_grammar "_ 5"
  constructor
  · have hdigits : Nat.digits 16 255 = [15, 15] := by decide
    have hrun : List.Forall₂ hexadecimal.IsDigit ['0', '0', 'f', 'F']
        (List.replicate 2 0 ++ (Nat.digits 16 255).reverse) := by
      rw [hdigits]
      exact .cons ⟨by decide, .inl rfl⟩ (.cons ⟨by decide, .inl rfl⟩ (.cons ⟨by decide, .inl rfl⟩
        (.cons ⟨by decide, .inr rfl⟩ .nil)))
    exact hrenders hexadecimal 255 ⟨['\u00a0', ' '], "_0_X+00_fF_".toList, ['\t'], by decide,
      List.all_eq_true.mp (by decide), List.all_eq_true.mp (by decide), ['0', 'X'], by decide,
      ['+'], by decide, ['0', '0', 'f', 'F'], 2, by decide, by decide, hrun⟩
  · exact hmalformed [' ', '5'] (remains_iff.mpr (by decide)) (.blank ' ' (by decide) (by decide))

end AddressLiteral
end ArchState
