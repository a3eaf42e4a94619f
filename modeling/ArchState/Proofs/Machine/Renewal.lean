import ArchState.Machine.Build
import ArchState.Proofs.Layout.Catalog
import ArchState.Proofs.Machine.Recorded
import ArchState.Proofs.Register.Reset

/-! # Selecting a layout and resetting

What registering layouts, a switch to another layout and a reset leave of a machine, each
described once. A switch and a reset tell the observers of the reservations and nobody else, and
neither sends a record.
-/
namespace ArchState

theorem Reservations.recordsTo_reset (r : Reservations) (sink : Sink) :
    Signal.recordsTo sink r.reset.signals = [] := by
  change Signal.recordsTo sink (notify _) = []
  rw [Signal.recordsTo, notify, List.filterMap_map, List.filterMap_eq_nil_iff]
  intro id _
  rfl

namespace Machine
variable {m : Machine} {identifier : String}

/-- Registering layouts adds them to the catalog and changes nothing else. -/
theorem registerAll_frame {layouts : List Layout} {n : Machine}
    (h : m.registerAll layouts = .ok n) :
    n = { m with catalog := n.catalog } ∧ n.catalog.added = m.catalog.added ++ layouts ∧
      n.catalog.selected = m.catalog.selected := by
  induction layouts generalizing m with
  | nil =>
    obtain rfl := Except.ok.inj h
    exact ⟨rfl, (List.append_nil _).symm, rfl⟩
  | cons l layouts ih =>
    change ((m.register l).bind fun n => n.registerAll layouts) = .ok n at h
    rw [register] at h
    cases hl : m.catalog.register l with
    | error e =>
      rw [hl] at h
      exact nomatch h
    | ok catalog =>
      rw [hl] at h
      obtain ⟨hframe, hadded, hselected⟩ := ih h
      obtain ⟨hone, hsame⟩ := Catalog.added_of_register hl
      refine ⟨hframe, ?_, hselected.trans hsame⟩
      rw [hadded, hone, List.append_assoc]
      rfl

/-- Layouts with identifiers that are new and distinct are registered. -/
theorem registerAll_of_nodup {layouts : List Layout}
    (h : ((m.catalog.layouts ++ layouts).map Layout.identifier).Nodup) :
    ∃ n, m.registerAll layouts = .ok n := by
  induction layouts generalizing m with
  | nil => exact ⟨m, rfl⟩
  | cons l layouts ih =>
    have hnew : l.identifier ∉ m.catalog.identifiers := by
      rw [List.map_append, List.nodup_append] at h
      intro hmem
      exact h.2.2 _ hmem _ (List.mem_map_of_mem (List.mem_cons_self)) rfl
    obtain ⟨catalog, hcatalog⟩ := Catalog.register_of_not_mem hnew
    have hlayouts := Catalog.layouts_of_register hcatalog
    obtain ⟨n, hn⟩ := ih (m := { m with catalog }) (by
      rw [hlayouts, List.append_assoc]
      exact h)
    refine ⟨n, ?_⟩
    change ((m.register l).bind fun n => n.registerAll layouts) = .ok n
    rw [register, hcatalog]
    exact hn

/-- A machine after a switch to the layout that `catalog` has selected. -/
def laidOut (m : Machine) (catalog : Catalog) : Machine :=
  { m with
    catalog
    memory := m.memory.setLayout catalog.current
    integers := (m.integers.applyLayout catalog.current).reset
    floats := m.floats.reset
    controls := m.controls.reset
    reservations := m.reservations.reset.state }

/-- A machine after a reset. -/
def cleared (m : Machine) : Machine :=
  { m with
    memory := m.memory.clear
    integers := m.integers.reset
    floats := m.floats.reset
    controls := m.controls.reset
    reservations := m.reservations.reset.state
    log := m.log.map UndoLog.clear }

theorem select_of_same {catalog : Catalog}
    (h : m.catalog.select identifier = .ok (false, catalog)) :
    m.select identifier = .ok (.quiet false m) := by
  obtain rfl := Catalog.eq_of_select_false h
  rw [select, h]
  rfl

theorem select_of_other {catalog : Catalog}
    (h : m.catalog.select identifier = .ok (true, catalog)) :
    m.select identifier = .ok ⟨true, m.laidOut catalog, m.reservations.reset.signals⟩ := by
  rw [select, h]
  change Except.ok ((whole m.reservations.reset _).map _) = _
  rw [whole_of_silent (m.reservations.recordsTo_reset .log)]
  rfl

/-- A layout is unknown, or it was selected before and nothing changes, or it is selected and the
machine is laid out anew. -/
theorem select_cases (m : Machine) (identifier : String) :
    (∃ e, m.select identifier = .error e) ∨ m.select identifier = .ok (.quiet false m) ∨
      ∃ catalog, m.catalog.select identifier = .ok (true, catalog) ∧
        m.select identifier = .ok ⟨true, m.laidOut catalog, m.reservations.reset.signals⟩ := by
  cases hselect : m.catalog.select identifier with
  | error e =>
    rw [select, hselect]
    exact .inl ⟨e, rfl⟩
  | ok selected =>
    obtain ⟨changed, catalog⟩ := selected
    cases changed with
    | false => exact .inr (.inl (select_of_same hselect))
    | true => exact .inr (.inr ⟨catalog, rfl, select_of_other hselect⟩)

theorem state_of_select {s : Step Machine Bool} (h : m.select identifier = .ok s) :
    s.state = m ∨ ∃ catalog, s.state = m.laidOut catalog := by
  rcases m.select_cases identifier with ⟨e, he⟩ | hsame | ⟨catalog, -, hlaid⟩
  · exact nomatch he.symm.trans h
  · obtain rfl := Except.ok.inj (hsame.symm.trans h)
    exact .inl rfl
  · obtain rfl := Except.ok.inj (hlaid.symm.trans h)
    exact .inr ⟨catalog, rfl⟩

theorem reset_eq (m : Machine) :
    m.reset = ⟨(), m.cleared, m.reservations.reset.signals⟩ := by
  have hwhole : m.reset =
      whole m.reservations.reset fun reservations => { m.cleared with reservations } := rfl
  rw [hwhole, whole_of_silent (m.reservations.recordsTo_reset .log)]
  rfl

theorem backstep_of_empty (h : m.log = none ∨ ∃ log, m.log = some log ∧ log.records = []) :
    m.backstep = .quiet (.ok false) m := by
  have hpop : m.log.bind UndoLog.pop? = none := by
    rcases h with hnone | ⟨log, hlog, hrecords⟩
    · rw [hnone]
      rfl
    · rw [hlog]
      exact (UndoLog.pop?_eq_none_iff log).mpr hrecords
  rw [backstep, hpop]

/-- A switch that is made, not made or refused does not touch the log. -/
theorem log_select {s : Step Machine Bool} (h : m.select identifier = .ok s) :
    s.state.log = m.log := by
  rcases state_of_select h with hsame | ⟨catalog, hlaid⟩
  · rw [hsame]
  · rw [hlaid]
    rfl

end Machine
end ArchState
