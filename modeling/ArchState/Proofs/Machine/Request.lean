import ArchState.Proofs.Machine.Renewal
import ArchState.Proofs.Register.Request

/-! # Machines that can be reached

A machine is reached from a new one by requests to it and to its parts. As long as no cell is
given another reset value through its handle, the reset values are those of the layout that was
applied last, in whatever order layouts were selected, applied and left again.
-/
namespace ArchState.Machine

/-- What may be asked of a machine so that it changes. Memory and the reservations may be asked
for anything. -/
inductive Request where
  | memory (operation : Memory → Step Memory Unit)
  | integers (request : IntegerRequest)
  | floats (request : FloatRequest)
  | controls (request : ControlRequest)
  | reservations (operation : Reservations → Step Reservations Unit)
  | register (l : Layout)
  | select (identifier : String)
  | attach (sink : Option Sink)
  | swapMemory (memory : Memory)
  | startAtMain (on : Bool)
  | enter (symbols : Symbols)
  | restore (record : UndoRecord)
  | backstep
  | reset

/-- Whether a request gives a cell another reset value through its handle. -/
def Request.editsReset : Request → Bool
  | integers request => request.editsReset
  | floats request => request.editsReset
  | controls request => request.editsReset
  | _ => false

variable {m : Machine} {l : Layout}

/-- The machine after a request. A layout that cannot be registered or selected changes nothing. -/
def after (m : Machine) : Request → Machine
  | .memory operation => (m.inMemory (operation m.memory)).state
  | .integers request => (m.inIntegers (m.integers.serve request)).state
  | .floats request => (m.inFloats (m.floats.serve request)).state
  | .controls request => (m.inControls (m.controls.serve request)).state
  | .reservations operation => (m.inReservations (operation m.reservations)).state
  | .register l => (m.register l).toOption.getD m
  | .select identifier =>
    match m.select identifier with
    | .ok s => s.state
    | .error _ => m
  | .attach sink => m.attach sink
  | .swapMemory memory => (m.swapMemory memory).2
  | .startAtMain on => { m with startAtMain := on }
  | .enter symbols => (m.enter symbols).state
  | .restore record => (m.restore record).state
  | .backstep => m.backstep.state
  | .reset => m.reset.state

/-- The layout that a request moves the reset values to. -/
def applied? (m : Machine) : Request → Option Layout
  | .integers request => request.layout?
  | .select identifier =>
    match m.select identifier with
    | .ok s => if s.answer then some s.state.layout else none
    | .error _ => none
  | _ => none

/-- A machine that is reached from a new one without a change of a reset value through a handle,
with the layout that was applied last. -/
inductive Reached : Machine → Layout → Prop where
  | initial (harts : Nat) : Reached (initial harts) Catalog.initial.current
  | built {s : Settings} {m : Machine} : ofSettings s = .ok m → Reached m m.layout
  | step {m : Machine} {l : Layout} {request : Request} :
      Reached m l → request.editsReset = false →
      Reached (m.after request) ((m.applied? request).getD l)

/-- A selection leaves a machine as it is or lays it out anew, and then a layout is applied. -/
theorem after_select (m : Machine) (identifier : String) :
    (m.after (.select identifier) = m ∧ m.applied? (.select identifier) = none) ∨
      ∃ catalog, m.after (.select identifier) = m.laidOut catalog ∧
        m.applied? (.select identifier) = some catalog.current := by
  rcases m.select_cases identifier with ⟨e, he⟩ | hsame | ⟨catalog, -, hlaid⟩
  · refine .inl ⟨?_, ?_⟩ <;> simp only [after, applied?, he]
  · refine .inl ⟨?_, ?_⟩
    · simp only [after, hsame]
      rfl
    · simp only [applied?, hsame]
      rfl
  · refine .inr ⟨catalog, ?_, ?_⟩
    · simp only [after, hlaid]
    · simp only [applied?, hlaid]
      rfl

/-- The reset values of a machine are those of a layout. -/
structure Homed (m : Machine) (l : Layout) : Prop where
  integers : m.integers.bank.resets = IntegerFile.resets l
  floats : m.floats.bank.resets = Vector.replicate _ 0
  controls : m.controls.bank.resets = Vector.replicate _ 0

theorem homed_initial (harts : Nat) : (initial harts).Homed Catalog.initial.current :=
  ⟨rfl, rfl, rfl⟩

theorem homed_laidOut (h : m.Homed l) (catalog : Catalog) :
    (m.laidOut catalog).Homed catalog.current where
  integers := ((m.integers.applyLayout _).resets_reset).trans
    (IntegerFile.resets_applyLayout h.integers catalog.current)
  floats := m.floats.resets_reset.trans h.floats
  controls := m.controls.resets_reset.trans h.controls

theorem homed_restore (h : m.Homed l) (record : UndoRecord) : (m.restore record).state.Homed l := by
  cases record with
  | register n v => exact ⟨(m.integers.resets_restore n v).trans h.integers, h.floats, h.controls⟩
  | floatRegister n v =>
    exact ⟨h.integers, (m.floats.resets_restore n v).trans h.floats, h.controls⟩
  | controlRegister n v =>
    exact ⟨h.integers, h.floats, (m.controls.resets_backdoor (.number n) v).trans h.controls⟩
  | programCounter v =>
    exact ⟨(m.integers.resets_restorePc v).trans h.integers, h.floats, h.controls⟩
  | word a v | half a v | byte a v | rawWord a v | doubleWord a d =>
    exact ⟨h.integers, h.floats, h.controls⟩

theorem homed_backstep (h : m.Homed l) : m.backstep.state.Homed l := by
  unfold backstep
  split
  · exact h
  · exact homed_restore (m := { m with log := some _ }) ⟨h.integers, h.floats, h.controls⟩ _

theorem homed_select (h : m.Homed l) (identifier : String) :
    (m.after (.select identifier)).Homed ((m.applied? (.select identifier)).getD l) := by
  rcases m.after_select identifier with ⟨hsame, hnone⟩ | ⟨catalog, hlaid, hsome⟩
  · rw [hsame, hnone]
    exact h
  · rw [hlaid, hsome]
    exact homed_laidOut h catalog

/-- No request moves the reset values but to the layout that it applies. -/
theorem homed_after (h : m.Homed l) {request : Request} (hr : request.editsReset = false) :
    (m.after request).Homed ((m.applied? request).getD l) := by
  cases request with
  | memory operation => exact ⟨h.integers, h.floats, h.controls⟩
  | integers request => exact ⟨IntegerFile.resets_serve hr h.integers, h.floats, h.controls⟩
  | floats request => exact ⟨h.integers, (m.floats.resets_serve hr).trans h.floats, h.controls⟩
  | controls request => exact ⟨h.integers, h.floats, (m.controls.resets_serve hr).trans h.controls⟩
  | reservations operation => exact ⟨h.integers, h.floats, h.controls⟩
  | register layout =>
    change ((m.register layout).toOption.getD m).Homed l
    rw [register]
    cases m.catalog.register layout <;> exact ⟨h.integers, h.floats, h.controls⟩
  | select identifier => exact homed_select h identifier
  | attach sink => exact ⟨h.integers, h.floats, h.controls⟩
  | swapMemory memory => exact ⟨h.integers, h.floats, h.controls⟩
  | startAtMain on => exact ⟨h.integers, h.floats, h.controls⟩
  | enter symbols => exact ⟨(m.integers.resets_restorePc _).trans h.integers, h.floats, h.controls⟩
  | restore record => exact homed_restore h record
  | backstep => exact homed_backstep h
  | reset =>
    change m.reset.state.Homed l
    rw [reset_eq]
    exact ⟨m.integers.resets_reset.trans h.integers, m.floats.resets_reset.trans h.floats,
      m.controls.resets_reset.trans h.controls⟩

/-- A machine that was built has the layout applied that it starts with. -/
theorem homed_built {s : Settings} (h : ofSettings s = .ok m) : m.Homed m.layout := by
  obtain ⟨n, selected, hregister, hselect, rfl⟩ := ofSettings_eq_ok h
  obtain ⟨hframe, -, hdefault⟩ := registerAll_frame hregister
  have hn : n.Homed n.layout := by
    rw [layout, Catalog.current_of_selected hdefault, hframe]
    exact ⟨rfl, rfl, rfl⟩
  have hselected : selected.state.Homed selected.state.layout := by
    rcases state_of_select hselect with hsame | ⟨catalog, hlaid⟩
    · rw [hsame]
      exact hn
    · rw [hlaid]
      exact homed_laidOut hn catalog
  dsimp only
  split <;> exact ⟨hselected.integers, hselected.floats, hselected.controls⟩

/-- The reset values of a machine that is reached are those of the layout applied last. -/
theorem Reached.homed (h : Reached m l) : m.Homed l := by
  induction h with
  | initial harts => exact homed_initial harts
  | built hbuilt => exact homed_built hbuilt
  | step _ hr ih => exact homed_after ih hr

end ArchState.Machine
