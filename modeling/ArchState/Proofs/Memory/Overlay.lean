import ArchState.Layout.Builtin
import ArchState.Memory.Text
import ArchState.Proofs.Memory.DoubleWord

/-! # Text under other segments

Statements are found by the bounds of text alone. Words are found by the segment that owns their
address, and text owns an address only where no other segment lies over it. Layouts are not checked
for sections that overlap, and a data segment reaches over all that stands between `.data` and the
heap. Under such a segment a statement can be installed and read, but its word is not seen.
-/
namespace ArchState

/-- A layout with text between `.data` and the heap. -/
def Layout.textBelowHeap : Layout where
  identifier := "TextBelowHeap"
  name := "Text below the heap"
  sections :=
    { text := ⟨0x400, 0x7FF, by decide⟩
      data := ⟨0x000, 0x3FF, by decide⟩
      heap := ⟨0x800, 0xBFF, by decide⟩
      stack := ⟨0xC00, 0xFFF, by decide⟩
      mmio := ⟨0x1400, 0x17FF, by decide⟩ }
  gpOffset := 0x200
  externSize := 0x100
  aligned := fun s => by cases s <;> decide
  gp_le := by decide
  extern_le := by decide

namespace Memory
variable {m : Memory} {seg : Segment} {a b : UInt32} {st : Statement}

/-- Whether another segment lies over the place of `a` in text. -/
def overlaid (m : Memory) (a : UInt32) : Bool :=
  [Segment.data, .stack, .mmio].any fun seg => m.inSegment seg a

theorem owner?_eq_text_iff :
    m.segments.owner? a = some .text ↔ m.inSegment .text a = true ∧ m.overlaid a = false := by
  have hdata : m.inSegment .data a = m.segments.data.contains a := rfl
  have hstack : m.inSegment .stack a = m.segments.stack.contains a := rfl
  have hmmio : m.inSegment .mmio a = m.segments.mmio.contains a := rfl
  have htext : m.inSegment .text a = m.segments.text.contains a := rfl
  simp only [overlaid, List.any_cons, List.any_nil, Bool.or_false, hdata, hstack, hmmio, htext,
    Segments.owner?]
  cases m.segments.data.contains a <;> cases m.segments.stack.contains a <;>
    cases m.segments.mmio.contains a <;> simp

/-- The built-in layouts have no text under another segment. -/
theorem not_overlaid_of_builtin (h : m.layout ∈ Layout.builtin) (ha : m.inSegment .text a = true) :
    m.overlaid a = false := by
  rw [overlaid, List.any_eq_false]
  intro seg hseg hin
  have hbounds : ∀ l ∈ Layout.builtin, ∀ seg ∈ [Segment.data, .stack, .mmio],
      ((Segments.ofLayout l).bounds seg).stop ≤ ((Segments.ofLayout l).bounds .text).base ∨
        ((Segments.ofLayout l).bounds .text).stop ≤ ((Segments.ofLayout l).bounds seg).base := by
    decide
  have hapart := hbounds m.layout h seg hseg
  have htext := Bounds.contains_iff.mp ha
  have hover := Bounds.contains_iff.mp hin
  simp only [segments] at htext hover
  omega

theorem setStatement_isOk_iff : (∃ r, m.setStatement a st = .ok r) ↔
    a.toNat % 4 = 0 ∧ m.inSegment .text a = true := by
  rw [← checkText_eq_ok_iff .write, setStatement]
  cases m.checkText .write a with
  | error fault =>
    constructor
    · rintro ⟨r, h⟩
      cases h
    · intro h
      cases h
  | ok _ => exact ⟨fun _ => rfl, fun _ => ⟨_, rfl⟩⟩

theorem getStatement_isOk_iff : (∃ r, (m.getStatement a).answer = .ok r) ↔
    a.toNat % 4 = 0 ∧ m.inSegment .text a = true := by
  rw [← checkText_eq_ok_iff .read, getStatement, fetchStatement]
  cases m.checkText .read a with
  | error fault =>
    constructor
    · rintro ⟨r, h⟩
      cases h
    · intro h
      cases h
  | ok _ => exact ⟨fun _ => rfl, fun _ => ⟨_, rfl⟩⟩

theorem setStatement_eq_ok {old : Option Statement} {next : Memory}
    (h : m.setStatement a st = .ok (old, next)) :
    a.toNat % 4 = 0 ∧ m.inSegment .text a = true ∧ next = m.putStatement a st := by
  obtain ⟨haligned, hin⟩ := setStatement_isOk_iff.mp ⟨_, h⟩
  rw [setStatement_of_inSegment haligned hin] at h
  exact ⟨haligned, hin, (congrArg Prod.snd (Except.ok.inj h)).symm⟩

theorem statementAt?_ofLayout (l : Layout) (a : UInt32) : (ofLayout l).statementAt? a = none :=
  BlockTable.slot_empty _ _

theorem statementAt?_putStatement (h : m.inSegment .text a = true) :
    (m.putStatement a st).statementAt? a = some st := by
  have hlt : m.segments.slot .text a < m.image.text.capacity := slot_lt_length h
  exact (BlockTable.slot_put _ hlt (some st) _).trans (if_pos rfl)

theorem wordAt_putStatement_of_ne (h : seg ≠ .text) (b : UInt32) :
    (m.putStatement a st).wordAt seg b = m.wordAt seg b := by
  cases seg with
  | text => exact absurd rfl h
  | data | stack | mmio => rfl

/-- What a raw reading shows at the place of a statement that was just installed. -/
theorem rawWord_putStatement (haligned : a.toNat % 4 = 0) (h : m.inSegment .text a = true) :
    (m.putStatement a st).rawWord a =
      if m.overlaid a then m.rawWord a else .ok st.binary := by
  have howner : (m.putStatement a st).segments.owner? a = m.segments.owner? a := rfl
  cases hover : m.overlaid a with
  | false =>
    have htext : m.segments.owner? a = some .text := owner?_eq_text_iff.mpr ⟨h, hover⟩
    have hword : (m.putStatement a st).wordAt .text a = st.binary :=
      congrArg (fun s : Option Statement => (s.map Statement.binary).getD 0)
        (statementAt?_putStatement h)
    rw [rawWord_of_owner haligned (howner.trans htext), hword]
    rfl
  | true =>
    cases hseg : m.segments.owner? a with
    | none => rw [rawWord, rawWord, rawWord?, rawWord?, howner, hseg]; rfl
    | some seg =>
      have hne : seg ≠ .text := by
        rintro rfl
        have hfree := (owner?_eq_text_iff.mp hseg).2
        rw [hover] at hfree
        cases hfree
      rw [rawWord_of_owner haligned (howner.trans hseg), rawWord_of_owner haligned hseg,
        wordAt_putStatement_of_ne hne]
      rfl

/-- The statements of a memory and its words agree on what is text, but for text under another
segment. Statements are accepted exactly inside the bounds of text. Text owns such an address
exactly if no other segment lies over it, and exactly then the word of a statement that was
installed is seen; otherwise the word that was there before is seen as before. -/
theorem statements_agree_unless_overlaid (m : Memory) (haligned : a.toNat % 4 = 0)
    (st : Statement) :
    ((∃ r, m.setStatement a st = .ok r) ↔ m.inSegment .text a = true) ∧
      ((∃ r, (m.getStatement a).answer = .ok r) ↔ m.inSegment .text a = true) ∧
      (m.segments.owner? a = some .text ↔ m.inSegment .text a = true ∧ m.overlaid a = false) ∧
      ∀ old next, m.setStatement a st = .ok (old, next) →
        next.fetchStatement a = .ok (some st) ∧
          next.rawWord a = if m.overlaid a then m.rawWord a else .ok st.binary := by
  refine ⟨?_, ?_, owner?_eq_text_iff, ?_⟩
  · rw [setStatement_isOk_iff, and_iff_right haligned]
  · rw [getStatement_isOk_iff, and_iff_right haligned]
  · intro old next hset
    obtain ⟨-, hin, rfl⟩ := setStatement_eq_ok hset
    refine ⟨?_, rawWord_putStatement haligned hin⟩
    have hnext : (m.putStatement a st).inSegment .text a = true := hin
    rw [fetchStatement_of_inSegment haligned hnext, statementAt?_putStatement hin]

/-- In a built-in layout the word of a statement is seen as soon as the statement is installed. -/
theorem statement_seen_as_word :
    let m := ofLayout .compactTextAtZero
    ∃ next, (0x40 : UInt32).toNat % 4 = 0 ∧
      m.setStatement 0x40 (.ofBinary 0x13 0x40) = .ok (none, next) ∧
      m.segments.owner? 0x40 = some .text ∧ next.rawWord 0x40 = .ok 0x13 := by
  intro m
  have hin : m.inSegment .text 0x40 = true := by decide
  have hbuiltin : m.layout ∈ Layout.builtin :=
    List.mem_cons_of_mem _ (List.mem_cons_of_mem _ (List.mem_cons_self ..))
  have hover : m.overlaid 0x40 = false := not_overlaid_of_builtin hbuiltin hin
  have hset : m.setStatement 0x40 (.ofBinary 0x13 0x40) =
      .ok (none, m.putStatement 0x40 (.ofBinary 0x13 0x40)) :=
    (setStatement_of_inSegment (by decide) hin _).trans (by rw [statementAt?_ofLayout])
  obtain ⟨-, -, howner, hseen⟩ :=
    statements_agree_unless_overlaid m (a := 0x40) (by decide) (.ofBinary 0x13 0x40)
  refine ⟨_, by decide, hset, howner.mpr ⟨hin, hover⟩, ?_⟩
  rw [(hseen none _ hset).2, hover]
  rfl

/-- In the layout with text below the heap, which is accepted, a statement is installed in text
while the data segment owns its address, and a raw reading shows a zero in its place. -/
theorem statement_hidden_by_data :
    let l := Layout.textBelowHeap
    let m := ofLayout l
    Layout.ofParts l.identifier l.name l.sections l.gpOffset l.externSize = .ok l ∧
      m.inSegment .text 0x400 = true ∧ m.segments.owner? 0x400 = some .data ∧
      ∃ next, m.setStatement 0x400 (.ofBinary 0x13 0x400) = .ok (none, next) ∧
        next.rawWord 0x400 = .ok 0 := by
  intro l m
  have hin : m.inSegment .text 0x400 = true := by decide
  have howner : m.segments.owner? 0x400 = some .data := by decide
  have hset : m.setStatement 0x400 (.ofBinary 0x13 0x400) =
      .ok (none, m.putStatement 0x400 (.ofBinary 0x13 0x400)) :=
    (setStatement_of_inSegment (by decide) hin _).trans (by rw [statementAt?_ofLayout])
  refine ⟨Layout.ofParts_eq_ok_iff.mpr ⟨rfl, rfl, rfl, rfl, rfl⟩, hin, howner, _, hset, ?_⟩
  have hover : m.overlaid 0x400 = true := by decide
  have hword : m.wordAt .data 0x400 = 0 :=
    congrArg (Option.getD · 0) (Image.word?_empty _ .data _)
  rw [rawWord_putStatement (by decide) hin, hover, if_pos rfl, rawWord_of_owner (by decide) howner,
    hword]

end Memory
end ArchState
