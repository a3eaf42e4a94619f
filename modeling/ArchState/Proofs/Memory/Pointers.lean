import ArchState.Layout.Builtin
import ArchState.Memory.Text
import ArchState.Proofs.Memory.Faults
import ArchState.Register.Integer

/-! # Pointers of accepted layouts

The parts of a layout are checked against its sections, while memory serves no more of a section
than its table can hold. The stack is cut at the bottom and text at the top, so the stack pointer
and the start of text always stand in what is served. The pointers into `.data` count from its
start, and past the capacity of the table of data they are checked but not served.
-/
namespace ArchState

/-- The bytes that a segment can hold. -/
def Segment.capacity (seg : Segment) : Nat := seg.maxBlocks * blockBytes

/-- A layout with a `.data` of 16 MiB whose global pointer stands 4 MiB into it. -/
def Layout.wideData : Layout where
  identifier := "WideData"
  name := "Wide data"
  sections :=
    { text := ⟨0x00400000, 0x00FFFFFF, by decide⟩
      data := ⟨0x10000000, 0x10FFFFFF, by decide⟩
      heap := ⟨0x11000000, 0x1FFFFFFF, by decide⟩
      stack := ⟨0x20000000, 0x2FFFFFFF, by decide⟩
      mmio := ⟨0xF0000000, 0xF000FFFF, by decide⟩ }
  gpOffset := 0x400000
  externSize := 0x10000
  aligned := fun s => by cases s <;> decide
  gp_le := by decide
  extern_le := by decide

namespace Memory
variable {m : Memory} {seg : Segment} {a : UInt32} {l : Layout}

/-- Whether loads and stores of a kind succeed at `a`, whatever is stored. -/
def Usable (m : Memory) (a : UInt32) (kind : AccessKind) : Prop :=
  m.loadOutcome a kind = .ok () ∧ ∀ d, m.storeOutcome a d kind = .ok ()

theorem usable_iff {kind : AccessKind} : m.Usable a kind ↔ m.Permits a kind := by
  simp only [Usable, loadOutcome_eq_refusal, storeOutcome_eq_refusal, Access.outcome_eq_ok_iff,
    refusal?_eq_none_iff, forall_const, and_self]

/-- In a segment other than text, bytes are usable wherever they lie and words at multiples of
four. -/
theorem usable_of_owner (hne : seg ≠ .text) (h : m.segments.owner? a = some seg) :
    m.Usable a .byte ∧ (a.toNat % 4 = 0 → m.Usable a .word) := by
  have hlt := a.toNat_lt
  constructor
  · have hlast := owner?_last (m := m) (a := a) Nat.zero_lt_one (by omega)
    exact usable_iff.mpr ⟨.inl rfl, by omega, .inl ⟨seg, hne, h, hlast.trans h⟩⟩
  · intro haligned
    have hlast := owner?_last (m := m) (a := a) (Nat.zero_lt_succ 3) (by omega)
    exact usable_iff.mpr
      ⟨haligned, .inr (.inr rfl), by omega, .inl ⟨seg, hne, h, hlast.trans h⟩⟩

theorem owner?_stackPointer (l : Layout) :
    ∃ seg, seg ≠ .text ∧ (ofLayout l).segments.owner? l.stackPointer = some seg := by
  have hstack : (ofLayout l).segments.stack.contains l.stackPointer = true := by
    have hlt := Segments.ofLayout_base_lt l .stack
    have hmod := Segments.ofLayout_base_mod l .stack
    have htop : ((ofLayout l).segments.bounds .stack).stop = l.stackPointer.toNat + 4 := rfl
    have haligned : l.stackPointer.toNat % 4 = 0 := Segments.stackBase_mod l
    refine Bounds.contains_iff.mpr ?_
    simp only [segments, Segments.bounds, ofLayout] at *
    omega
  rw [Segments.owner?, hstack]
  cases (ofLayout l).segments.data.contains l.stackPointer with
  | true => exact ⟨.data, by decide, rfl⟩
  | false => exact ⟨.stack, by decide, rfl⟩

theorem inSegment_textBase (l : Layout) : (ofLayout l).inSegment .text l.textBase = true :=
  Bounds.contains_iff.mpr ⟨Nat.le_refl _, Segments.ofLayout_base_lt l .text⟩

/-- What stands in `.data` is served up to the capacity of the data segment. -/
theorem owner?_eq_data_iff {offset : Nat} (ha : a.toNat = l.sections.data.low.toNat + offset)
    (hle : a.toNat ≤ l.sections.data.high.toNat) :
    (ofLayout l).segments.owner? a = some .data ↔ offset < Segment.data.capacity := by
  have howner : (ofLayout l).segments.owner? a = some .data ↔
      (ofLayout l).segments.data.contains a = true := by
    refine ⟨fun h => Segments.contains_of_owner? h, fun h => ?_⟩
    rw [Segments.owner?, if_pos h]
  have hlimit : l.sections.data.high.toNat ≤ l.dataSegmentLimit.toNat := by
    rw [l.dataSegmentLimit_toNat]
    exact Nat.le_max_left _ _
  rw [howner, Bounds.contains_iff]
  change l.sections.data.low.toNat ≤ _ ∧ _ < l.sections.data.low.toNat +
    min (l.dataSegmentLimit.toNat / 4 * 4 + 4 - l.sections.data.low.toNat)
      Segment.data.capacity ↔ _
  omega

theorem usable_in_data_iff {offset : Nat} (ha : a.toNat = l.sections.data.low.toNat + offset)
    (hle : a.toNat ≤ l.sections.data.high.toNat) :
    (ofLayout l).Usable a .byte ∧ (ofLayout l).segments.owner? a = some .data ↔
      offset < Segment.data.capacity := by
  rw [← owner?_eq_data_iff ha hle]
  have hne : Segment.data ≠ .text := by decide
  exact ⟨And.right, fun h => ⟨(usable_of_owner hne h).1, h⟩⟩

theorem resetValue_ofLayout (l : Layout) (i : Integer.spec.Position) :
    (IntegerFile.ofLayout l).bank.resetValue i = (IntegerFile.resets l).get i := by
  have hview : ∀ j : Integer.spec.Position, Integer.spec.isView j = false := by decide
  exact BankSpec.look_of_not_view (hview i) _

theorem resetValue_pointers (l : Layout) :
    ((IntegerFile.ofLayout l).bank.resetValue Integer.stackPointer).toUInt32 = l.stackPointer ∧
      ((IntegerFile.ofLayout l).bank.resetValue Integer.globalPointer).toUInt32 =
        l.globalPointer ∧
      (IntegerFile.ofLayout l).initialPc = l.textBase := by
  have hsp : (IntegerFile.resets l).get Integer.stackPointer = l.stackPointer.toUInt64 := rfl
  have hgp : (IntegerFile.resets l).get Integer.globalPointer = l.globalPointer.toUInt64 := rfl
  have hpc : (IntegerFile.resets l).get Integer.programCounter = l.textBase.toUInt64 := rfl
  rw [IntegerFile.initialPc, resetValue_ofLayout, resetValue_ofLayout, resetValue_ofLayout, hsp,
    hgp, hpc]
  exact ⟨UInt32.toUInt32_toUInt64 _, UInt32.toUInt32_toUInt64 _, UInt32.toUInt32_toUInt64 _⟩

/-- The pointers of an accepted layout in a memory and registers that are built from it. The stack
pointer can be used for words, and the program counter starts where statements are read. The
global pointer and the start of the `.data` directives can be used for bytes of the data segment
exactly if they stand within what the data segment can hold. -/
theorem pointers_usable_within_capacity {identifier name : String} {sections : Sections}
    {gpOffset externSize : UInt32}
    (h : Layout.ofParts identifier name sections gpOffset externSize = .ok l) :
    let m := ofLayout l
    let f := IntegerFile.ofLayout l
    let sp := (f.bank.resetValue Integer.stackPointer).toUInt32
    let gp := (f.bank.resetValue Integer.globalPointer).toUInt32
    m.Usable sp .word ∧
      (m.Usable gp .byte ∧ m.segments.owner? gp = some .data ↔
        gpOffset.toNat < Segment.data.capacity) ∧
      (m.Usable l.dataBase .byte ∧ m.segments.owner? l.dataBase = some .data ↔
        externSize.toNat < Segment.data.capacity) ∧
      m.fetchStatement f.initialPc = .ok none := by
  obtain ⟨-, -, -, rfl, rfl⟩ := Layout.ofParts_eq_ok_iff.mp h
  intro m f sp gp
  obtain ⟨hsp, hgp, hpc⟩ :
      sp = l.stackPointer ∧ gp = l.globalPointer ∧ f.initialPc = l.textBase :=
    resetValue_pointers l
  refine ⟨?_, ?_, ?_, ?_⟩
  · obtain ⟨seg, hne, howner⟩ := owner?_stackPointer l
    rw [hsp]
    exact (usable_of_owner hne howner).2 (Segments.stackBase_mod l)
  · rw [hgp]
    exact usable_in_data_iff l.globalPointer_toNat (l.globalPointer_toNat ▸ l.gp_le)
  · exact usable_in_data_iff l.dataBase_toNat (l.dataBase_toNat ▸ l.extern_le)
  · have haligned : l.textBase.toNat % 4 = 0 := l.aligned .text
    rw [hpc, fetchStatement_of_inSegment haligned (inSegment_textBase l)]
    exact congrArg Except.ok (BlockTable.slot_empty _ _)

/-- The pointers of the default layout can all be used. -/
theorem pointers_usable_by_default :
    let l := Layout.default
    let m := ofLayout l
    Layout.ofParts l.identifier l.name l.sections l.gpOffset l.externSize = .ok l ∧
      m.Usable 0x7FFFEFFC .word ∧
      (m.Usable 0x10008000 .byte ∧ m.segments.owner? 0x10008000 = some .data) ∧
      (m.Usable 0x10010000 .byte ∧ m.segments.owner? 0x10010000 = some .data) ∧
      m.fetchStatement 0x00400000 = .ok none := by
  intro l m
  have haccepted : Layout.ofParts l.identifier l.name l.sections l.gpOffset l.externSize = .ok l :=
    Layout.ofParts_eq_ok_iff.mpr ⟨rfl, rfl, rfl, rfl, rfl⟩
  obtain ⟨hsp, hgp, hdata, hpc⟩ := pointers_usable_within_capacity haccepted
  obtain ⟨hstack, hglobal, htext⟩ := resetValue_pointers l
  have hstack' : l.stackPointer = 0x7FFFEFFC := by decide
  have hglobal' : l.globalPointer = 0x10008000 := by decide
  have hdata' : l.dataBase = 0x10010000 := by decide
  have htext' : l.textBase = 0x00400000 := by decide
  rw [hstack, hstack'] at hsp
  rw [hglobal, hglobal'] at hgp
  rw [hdata'] at hdata
  rw [htext, htext'] at hpc
  exact ⟨haccepted, hsp, hgp.mpr (by decide), hdata.mpr (by decide), hpc⟩

/-- In the layout with a wide `.data`, which is accepted, a byte at the global pointer cannot be
loaded. -/
theorem global_pointer_past_capacity :
    let l := Layout.wideData
    Layout.ofParts l.identifier l.name l.sections l.gpOffset l.externSize = .ok l ∧
      l.globalPointer = 0x10400000 ∧
      (ofLayout l).loadOutcome l.globalPointer .byte = .error ⟨.read, .outOfRange, 0x10400000⟩ := by
  intro l
  refine ⟨Layout.ofParts_eq_ok_iff.mpr ⟨rfl, rfl, rfl, rfl, rfl⟩, by decide, ?_⟩
  have hrefused : (ofLayout l).refusal? l.globalPointer .byte = some ⟨.outOfRange, 0x10400000⟩ := by
    decide +kernel
  rw [loadOutcome_eq_refusal, hrefused]
  rfl

end Memory
end ArchState
