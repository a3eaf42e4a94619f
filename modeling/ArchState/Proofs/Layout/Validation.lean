import ArchState.Layout.Builtin

/-! # Validation of layouts

The parts of a layout are checked one after the other and the first check that they fail is
reported. Every layout passes all of them, whichever way it came about, so the addresses that are
derived from it neither wrap around nor leave their sections.
-/
namespace ArchState

/-- What a layout is made of. -/
structure LayoutParts where
  identifier : String
  name : String
  sections : Sections
  gpOffset : UInt32
  externSize : UInt32
  deriving DecidableEq

inductive LayoutCheck where
  | start (s : Section)
  | pointer (p : DataPointer)
  deriving DecidableEq, Repr

/-- The checks in the order in which they are made. -/
def LayoutCheck.inOrder : List LayoutCheck :=
  [.start .text, .start .data, .start .heap, .start .stack, .start .mmio,
    .pointer .globalPointer, .pointer .dataBase]

theorem LayoutCheck.mem_inOrder (c : LayoutCheck) : c ∈ inOrder := by
  obtain s | p := c
  · cases s <;> decide
  · cases p <;> decide

theorem LayoutCheck.inOrder_eq : inOrder =
    Section.all.map start ++ [pointer .globalPointer, pointer .dataBase] := rfl

namespace LayoutParts
variable {p : LayoutParts} {l : Layout}

def build (p : LayoutParts) : Except LayoutError Layout :=
  Layout.ofParts p.identifier p.name p.sections p.gpOffset p.externSize

def offset (p : LayoutParts) : DataPointer → UInt32
  | .globalPointer => p.gpOffset
  | .dataBase => p.externSize

/-- Where a pointer into `.data` is, without a wrap-around. -/
def place (p : LayoutParts) (q : DataPointer) : Nat :=
  p.sections.data.low.toNat + (p.offset q).toNat

def Passes (p : LayoutParts) : LayoutCheck → Prop
  | .start s => (p.sections.range s).low.toNat % 4 = 0
  | .pointer q => p.place q ≤ p.sections.data.high.toNat

instance (p : LayoutParts) : DecidablePred p.Passes
  | .start s => inferInstanceAs (Decidable ((p.sections.range s).low.toNat % 4 = 0))
  | .pointer q => inferInstanceAs (Decidable (p.place q ≤ p.sections.data.high.toNat))

def fault (p : LayoutParts) : LayoutCheck → LayoutError
  | .start s => .unalignedSection p.identifier s (p.sections.range s).low
  | .pointer q => .outsideData p.identifier q (p.place q)

/-- Whether a check fails and all those before it pass. -/
def FirstFailed (p : LayoutParts) (c : LayoutCheck) : Prop :=
  ∃ before after, LayoutCheck.inOrder = before ++ c :: after ∧ (∀ d ∈ before, p.Passes d) ∧
    ¬ p.Passes c

def firstFailed? (p : LayoutParts) : Option LayoutCheck :=
  LayoutCheck.inOrder.find? fun c => !decide (p.Passes c)

theorem firstFailed?_eq_some_iff {c : LayoutCheck} : p.firstFailed? = some c ↔ p.FirstFailed c := by
  simp only [firstFailed?, List.find?_eq_some_iff_append, FirstFailed, Bool.not_eq_true',
    decide_eq_false_iff_not, Bool.not_not, decide_eq_true_eq]
  constructor
  · rintro ⟨hfailed, before, after, heq, hbefore⟩
    exact ⟨before, after, heq, hbefore, hfailed⟩
  · rintro ⟨before, after, heq, hbefore, hfailed⟩
    exact ⟨hfailed, before, after, heq, hbefore⟩

theorem firstFailed?_eq_none_iff : p.firstFailed? = none ↔ ∀ c, p.Passes c := by
  simp only [firstFailed?, List.find?_eq_none, Bool.not_eq_true', decide_eq_false_iff_not,
    Decidable.not_not]
  exact ⟨fun h c => h c c.mem_inOrder, fun h c _ => h c⟩

theorem firstFailed?_eq : p.firstFailed? =
    ((Section.all.find? (Layout.startsUnaligned p.sections)).map .start).or
      ([LayoutCheck.pointer .globalPointer, .pointer .dataBase].find?
        fun c => !decide (p.Passes c)) := by
  rw [firstFailed?, LayoutCheck.inOrder_eq, List.find?_append, List.find?_map]
  rfl

theorem build_of_firstFailed {c : LayoutCheck} (h : p.firstFailed? = some c) :
    p.build = .error (p.fault c) := by
  rw [firstFailed?_eq] at h
  rw [build, Layout.ofParts]
  split
  · rename_i s hs
    rw [hs] at h
    cases h
    rfl
  · rename_i hnone
    rw [hnone, Option.map_none, Option.none_or, List.find?_cons] at h
    by_cases hgp : p.Passes (.pointer .globalPointer)
    · rw [decide_eq_true hgp] at h
      obtain ⟨hfailed, hc⟩ : ¬ p.Passes (.pointer .dataBase) ∧ .pointer .dataBase = c := by
        simpa using h
      subst hc
      exact (dif_pos hgp).trans (dif_neg hfailed)
    · rw [decide_eq_false hgp] at h
      cases h
      exact dif_neg hgp

end LayoutParts

namespace Layout
variable (l : Layout)

def parts : LayoutParts where
  identifier := l.identifier
  name := l.name
  sections := l.sections
  gpOffset := l.gpOffset
  externSize := l.externSize

theorem passes_parts : ∀ c, l.parts.Passes c
  | .start s => l.aligned s
  | .pointer .globalPointer => l.gp_le
  | .pointer .dataBase => l.extern_le

theorem contains_globalPointer : l.sections.data.contains l.globalPointer = true := by
  have hle := l.gp_le
  rw [Range.contains_iff, UInt32.le_iff_toNat_le, UInt32.le_iff_toNat_le, l.globalPointer_toNat]
  omega

theorem contains_dataBase : l.sections.data.contains l.dataBase = true := by
  have hle := l.extern_le
  rw [Range.contains_iff, UInt32.le_iff_toNat_le, UInt32.le_iff_toNat_le, l.dataBase_toNat]
  omega

/-- The start of the stack is a word, and so it is not above the word that the stack grows from. -/
theorem contains_stackBase : l.sections.stack.contains l.stackBase = true := by
  have hle := UInt32.le_iff_toNat_le.mp l.sections.stack.low_le_high
  have haligned : l.sections.stack.low.toNat % 4 = 0 := l.aligned .stack
  rw [Range.contains_iff, UInt32.le_iff_toNat_le, UInt32.le_iff_toNat_le, l.stackBase_toNat]
  omega

end Layout

namespace LayoutParts
variable {p : LayoutParts} {l : Layout}

theorem build_eq_ok_iff : p.build = .ok l ↔ l.parts = p := by
  rw [build, Layout.ofParts_eq_ok_iff]
  obtain ⟨i, n, s, g, e⟩ := p
  simp only [Layout.parts, mk.injEq]

theorem exists_build_iff : (∃ l, p.build = .ok l) ↔ ∀ c, p.Passes c := by
  constructor
  · rintro ⟨l, hl⟩
    exact build_eq_ok_iff.mp hl ▸ l.passes_parts
  · intro h
    have haligned (s : Section) : (p.sections.range s).low.toNat % 4 = 0 := h (.start s)
    exact ⟨⟨p.identifier, p.name, p.sections, p.gpOffset, p.externSize, haligned,
      h (.pointer .globalPointer), h (.pointer .dataBase)⟩, build_eq_ok_iff.mpr rfl⟩

theorem build_eq_error_iff {e : LayoutError} :
    p.build = .error e ↔ ∃ c, p.FirstFailed c ∧ e = p.fault c := by
  simp only [← firstFailed?_eq_some_iff]
  constructor
  · intro h
    cases hfirst : p.firstFailed? with
    | none =>
      obtain ⟨l, hl⟩ := exists_build_iff.mpr (firstFailed?_eq_none_iff.mp hfirst)
      cases h.symm.trans hl
    | some c =>
      rw [build_of_firstFailed hfirst] at h
      exact ⟨c, rfl, (Except.error.inj h).symm⟩
  · rintro ⟨c, hfirst, rfl⟩
    exact build_of_firstFailed hfirst

end LayoutParts
end ArchState
