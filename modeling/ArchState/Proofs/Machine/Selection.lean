import ArchState.Proofs.Machine.Request
import ArchState.Proofs.Memory.Request

/-! # On which layout a machine stands

The catalog, memory and the reset values of the registers each tell a layout. A switch to another
layout sets all three of them. A layout that is selected already is not applied again, so after
a memory of another layout was swapped in, or after the registers were moved alone, selecting it
leaves the machine where it stands.
-/
namespace ArchState

namespace Machine
variable {m : Machine} {l : Layout} {identifier : String}

/-- Memory is laid out by a layout, and the stack pointer, the global pointer and the program
counter are reset to its addresses. -/
structure Stands (m : Machine) (l : Layout) : Prop where
  memory : m.memory.layout = l
  segments : m.memory.segments = Segments.ofLayout l
  stackPointer : m.integers.bank.resetValue Integer.stackPointer = l.stackPointer.toUInt64
  globalPointer : m.integers.bank.resetValue Integer.globalPointer = l.globalPointer.toUInt64
  programCounter : m.integers.initialPc = l.textBase

/-- The reset values of the three registers decide, since memory follows its layout. -/
theorem stands_of_resets (hmemory : m.memory.layout = l)
    (hsp : m.integers.bank.resets.get Integer.stackPointer = l.stackPointer.toUInt64)
    (hgp : m.integers.bank.resets.get Integer.globalPointer = l.globalPointer.toUInt64)
    (hpc : m.integers.bank.resets.get Integer.programCounter = l.textBase.toUInt64) :
    m.Stands l where
  memory := hmemory
  segments := by rw [Memory.segments, hmemory]
  stackPointer := by rw [Bank.resetValue, BankSpec.look_of_not_view (by decide), hsp]
  globalPointer := by rw [Bank.resetValue, BankSpec.look_of_not_view (by decide), hgp]
  programCounter := by
    rw [IntegerFile.initialPc, Bank.resetValue, BankSpec.look_of_not_view (by decide), hpc,
      UInt32.toUInt32_toUInt64]

theorem stands_of_homed (h : m.Homed l) (hmemory : m.memory.layout = l) : m.Stands l := by
  refine stands_of_resets hmemory ?_ ?_ ?_ <;> rw [h.integers] <;> rfl

theorem resets_applied (f : IntegerFile) (l : Layout) (i : Integer.spec.Position) :
    (f.applyLayout l).bank.resets.get i =
      if Integer.programCounter = i then l.textBase.toUInt64
      else if Integer.globalPointer = i then l.globalPointer.toUInt64
      else if Integer.stackPointer = i then l.stackPointer.toUInt64
      else f.bank.resets.get i := by
  have hget : ∀ (v : Vector UInt64 Integer.spec.size) (j : Integer.spec.Position) (x : UInt64),
      (v.set j x).get i = if j = i then x else v.get i := by
    intro v j x
    have hset : (v.set j x)[i] = if j.val = i.val then x else v[i] :=
      Vector.getElem_set j.isLt i.isLt
    simp only [Fin.ext_iff]
    exact hset
  rw [IntegerFile.applyLayout]
  simp only [Bank.setResetValue, hget]

/-- A switch puts the machine on the layout, wherever it has stood before. -/
theorem stands_laidOut (m : Machine) (catalog : Catalog) :
    (m.laidOut catalog).Stands catalog.current := by
  have hresets : (m.laidOut catalog).integers.bank.resets =
      (m.integers.applyLayout catalog.current).bank.resets := IntegerFile.resets_reset _
  refine stands_of_resets rfl ?_ ?_ ?_
  · rw [hresets, resets_applied]
    rfl
  · rw [hresets, resets_applied]
    rfl
  · rw [hresets, resets_applied]
    rfl

/-- Whether a request leaves memory and the reset values to the machine: it does not lay memory
out anew, swap in a memory of another layout, or move reset values otherwise than to the selected
layout. -/
def Request.leavesLayout (m : Machine) : Request → Prop
  | .memory operation => (operation m.memory).state.layout = m.memory.layout
  | .swapMemory new => new.layout = m.layout
  | .integers request => request.editsReset = false ∧ ∀ l, request.layout? = some l → l = m.layout
  | request => request.editsReset = false

/-- A machine that is reached from a new one by requests that leave the layout to it. -/
inductive Steady : Machine → Prop where
  | initial (harts : Nat) : Steady (initial harts)
  | built {s : Settings} {m : Machine} : ofSettings s = .ok m → Steady m
  | step {m : Machine} {request : Request} :
      Steady m → request.leavesLayout m → Steady (m.after request)

theorem Request.editsReset_of_leavesLayout {request : Request} (h : request.leavesLayout m) :
    request.editsReset = false := by
  cases request with
  | memory operation => rfl
  | swapMemory new => rfl
  | integers request => exact h.1
  | _ => exact h

theorem layouts_restore (m : Machine) (record : UndoRecord) :
    (m.restore record).state.layout = m.layout ∧
      (m.restore record).state.memory.layout = m.memory.layout := by
  have hmemory : (m.memory.serve ⟨0⟩ (.restore record)).state.layout = m.memory.layout :=
    m.memory.layout_serve ⟨0⟩ rfl
  cases record with
  | word a v => exact ⟨rfl, hmemory⟩
  | half a v => exact ⟨rfl, hmemory⟩
  | byte a v => exact ⟨rfl, hmemory⟩
  | rawWord a v => exact ⟨rfl, hmemory⟩
  | doubleWord a d => exact ⟨rfl, hmemory⟩
  | _ => exact ⟨rfl, rfl⟩

theorem layouts_backstep (m : Machine) :
    m.backstep.state.layout = m.layout ∧ m.backstep.state.memory.layout = m.memory.layout := by
  unfold backstep
  split
  · exact ⟨rfl, rfl⟩
  · rename_i record log _
    exact layouts_restore { m with log := some log } record

theorem layouts_register (m : Machine) (new : Layout) :
    (m.after (.register new)).layout = m.layout ∧
      (m.after (.register new)).memory.layout = m.memory.layout := by
  rw [after, register]
  cases hregister : m.catalog.register new with
  | error e => exact ⟨rfl, rfl⟩
  | ok catalog => exact ⟨Catalog.current_of_register hregister, rfl⟩

theorem layouts_reset (m : Machine) :
    m.reset.state.layout = m.layout ∧ m.reset.state.memory.layout = m.memory.layout := by
  rw [reset_eq]
  exact ⟨rfl, rfl⟩

theorem layouts_select (hmemory : m.memory.layout = m.layout) (identifier : String) :
    (m.after (.select identifier)).memory.layout = (m.after (.select identifier)).layout ∧
      (m.applied? (.select identifier)).getD m.layout = (m.after (.select identifier)).layout := by
  rcases m.after_select identifier with ⟨hsame, hnone⟩ | ⟨catalog, hlaid, hsome⟩
  · rw [hsame, hnone]
    exact ⟨hmemory, rfl⟩
  · rw [hlaid, hsome]
    exact ⟨rfl, rfl⟩

/-- A request that leaves the layout to the machine keeps memory and the reset values together
with the selection. -/
theorem layouts_after (hmemory : m.memory.layout = m.layout) {request : Request}
    (h : request.leavesLayout m) :
    (m.after request).memory.layout = (m.after request).layout ∧
      (m.applied? request).getD m.layout = (m.after request).layout := by
  cases request with
  | select identifier => exact layouts_select hmemory identifier
  | memory operation =>
    have hkept : (operation m.memory).state.layout = m.memory.layout := h
    exact ⟨hkept.trans hmemory, rfl⟩
  | swapMemory new =>
    have hnew : new.layout = m.layout := h
    exact ⟨hnew, rfl⟩
  | integers request =>
    refine ⟨hmemory, ?_⟩
    cases hlayout : request.layout? with
    | none =>
      rw [applied?, hlayout]
      rfl
    | some l =>
      rw [applied?, hlayout]
      exact h.2 l hlayout
  | register new =>
    obtain ⟨hlayout, hkept⟩ := m.layouts_register new
    rw [hlayout, hkept]
    exact ⟨hmemory, rfl⟩
  | restore record =>
    obtain ⟨hlayout, hkept⟩ := m.layouts_restore record
    exact ⟨hkept.trans (hmemory.trans hlayout.symm), hlayout.symm⟩
  | backstep =>
    obtain ⟨hlayout, hkept⟩ := m.layouts_backstep
    exact ⟨hkept.trans (hmemory.trans hlayout.symm), hlayout.symm⟩
  | reset =>
    obtain ⟨hlayout, hkept⟩ := m.layouts_reset
    exact ⟨hkept.trans (hmemory.trans hlayout.symm), hlayout.symm⟩
  | _ => exact ⟨hmemory, rfl⟩

theorem memory_layout_built {s : Settings} (h : ofSettings s = .ok m) :
    m.memory.layout = m.layout := by
  obtain ⟨n, selected, hregister, hselect, rfl⟩ := ofSettings_eq_ok h
  obtain ⟨hframe, -, hdefault⟩ := registerAll_frame hregister
  have hn : n.memory.layout = n.layout := by
    rw [layout, Catalog.current_of_selected hdefault, hframe]
    rfl
  have hselected : selected.state.memory.layout = selected.state.layout := by
    rcases state_of_select hselect with hsame | ⟨catalog, hlaid⟩
    · rw [hsame]
      exact hn
    · rw [hlaid]
      rfl
  dsimp only
  split <;> exact hselected

/-- A machine that was left its layout has memory and the registers on the selected one. -/
theorem Steady.settled (h : Steady m) : m.memory.layout = m.layout ∧ Reached m m.layout := by
  induction h with
  | initial harts => exact ⟨rfl, .initial harts⟩
  | built hbuilt => exact ⟨memory_layout_built hbuilt, .built hbuilt⟩
  | @step m request _ hleaves ih =>
    obtain ⟨hmemory, happlied⟩ := layouts_after ih.1 hleaves
    have hreached := Reached.step ih.2 (Request.editsReset_of_leavesLayout hleaves)
    rw [happlied] at hreached
    exact ⟨hmemory, hreached⟩

theorem Steady.stands (h : Steady m) : m.Stands m.layout :=
  stands_of_homed h.settled.2.homed h.settled.1

/-- What a layout that can be selected says about where the machine stands. -/
theorem stands_of_select {s : Step Machine Bool} (h : m.select identifier = .ok s) :
    m.catalog.find? identifier = some s.state.layout ∧
    (s.answer = true → s.state.Stands s.state.layout) ∧
    (s.answer = false → s.state = m) ∧
    (s.state.Stands s.state.layout ↔ s.answer = true ∨ m.Stands m.layout) ∧
    (Steady m → s.state.Stands s.state.layout) := by
  cases hselect : m.catalog.select identifier with
  | error e =>
    rw [select, hselect] at h
    cases h
  | ok selected =>
    obtain ⟨changed, catalog⟩ := selected
    have hfound := Catalog.find?_of_select hselect
    cases changed with
    | false =>
      obtain rfl := Catalog.eq_of_select_false hselect
      obtain rfl := Except.ok.inj ((select_of_same hselect).symm.trans h)
      refine ⟨hfound, fun h => absurd h Bool.false_ne_true, fun _ => rfl, ?_, Steady.stands⟩
      constructor
      · exact .inr
      · rintro (hanswer | hstands)
        · cases hanswer
        · exact hstands
    | true =>
      obtain rfl := Except.ok.inj ((select_of_other hselect).symm.trans h)
      have hstands := m.stands_laidOut catalog
      exact ⟨hfound, fun _ => hstands, fun h => absurd h.symm Bool.false_ne_true,
        ⟨fun _ => .inl rfl, fun _ => hstands⟩,
        fun _ => hstands⟩

/-- After a memory was swapped in, the layout that is selected cannot be applied to it. -/
theorem stands_of_swapped (h : Steady m) (new : Memory) :
    ∃ s, (m.swapMemory new).2.select m.layout.identifier = .ok s ∧ s.answer = false ∧
      (s.state.Stands m.layout ↔ new.layout = m.layout) := by
  have hselect : (m.swapMemory new).2.select m.layout.identifier =
      .ok (.quiet false (m.swapMemory new).2) := select_of_same m.catalog.select_current
  refine ⟨_, hselect, rfl, ?_⟩
  constructor
  · intro hstands
    exact hstands.memory
  · intro hlayout
    have hstands := h.stands
    refine ⟨hlayout, ?_, hstands.stackPointer, hstands.globalPointer, hstands.programCounter⟩
    exact congrArg Segments.ofLayout hlayout

/-- A layout that can be selected is one of the catalog. If it was not selected before, the machine
stands on it afterwards, and if it was, the machine stays as it is and stands on it only if it has
done so. A machine that was left its layout always stands on the one that it has selected. When
a memory is swapped in, selecting this layout again changes nothing, so the machine stands on it
only if the memory has been laid out by it. -/
theorem selected_layout_stands (m : Machine) :
    (∀ identifier s, m.select identifier = .ok s →
      m.catalog.find? identifier = some s.state.layout ∧
      (s.answer = true → s.state.Stands s.state.layout) ∧
      (s.answer = false → s.state = m) ∧
      (s.state.Stands s.state.layout ↔ s.answer = true ∨ m.Stands m.layout) ∧
      (Steady m → s.state.Stands s.state.layout)) ∧
    (Steady m → ∀ new : Memory,
      ∃ s, (m.swapMemory new).2.select m.layout.identifier = .ok s ∧ s.answer = false ∧
        (s.state.Stands m.layout ↔ new.layout = m.layout)) :=
  ⟨fun _ _ => stands_of_select, stands_of_swapped⟩

/-- A layout that is selected twice is not applied again, and the machine stands on it. -/
theorem selected_twice_stands :
    let m := (initial 1).after (.select "CompactTextAtZero")
    m.Steady ∧ ∃ s, m.select "CompactTextAtZero" = .ok s ∧ s.answer = false ∧
      s.state.Stands s.state.layout ∧ s.state.layout.identifier = "CompactTextAtZero" := by
  intro m
  have hsteady : m.Steady := .step (.initial 1) rfl
  have hselect : ∃ s, m.select "CompactTextAtZero" = .ok s ∧ s.answer = false := ⟨_, rfl, rfl⟩
  obtain ⟨s, hs, hanswer⟩ := hselect
  obtain ⟨-, -, hsame, -, hstands⟩ := (selected_layout_stands m).1 _ s hs
  refine ⟨hsteady, s, hs, hanswer, hstands hsteady, ?_⟩
  rw [hsame hanswer]
  rfl

/-- The default layout stays selected when a memory of another layout is swapped in. Selecting it
again does not lay this memory out. -/
theorem selection_misses_swapped_memory :
    let m := ((initial 1).swapMemory (.ofLayout .compactTextAtZero)).2
    ∃ s l, m.select "Default" = .ok s ∧ m.catalog.find? "Default" = some l ∧
      s.state.memory.layout.identifier = "CompactTextAtZero" ∧ ¬ s.state.Stands l := by
  intro m
  refine ⟨_, Layout.default, rfl, rfl, rfl, ?_⟩
  intro hstands
  have hlayout : Layout.compactTextAtZero = Layout.default := hstands.memory
  exact absurd (congrArg Layout.identifier hlayout) (by decide)

end Machine
end ArchState
