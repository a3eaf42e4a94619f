import ArchState.Proofs.Machine.Request

/-! # Fresh machines

A switch to another layout leaves what a new machine has on which this layout is selected. A
reset leaves a memory that is new but for its layout and registers that hold the reset values of
the layout that was applied last. What was attached to the machine stays attached.
-/
namespace ArchState

/-- What programs can find out about a machine: the layout that is selected, the layout and the
contents of memory, what every register shows, and the reservations of every hart. -/
structure Architecture where
  layout : Layout
  memoryLayout : Layout
  image : Image
  heap : UInt32
  integer : Integer.spec.Position → UInt64
  float : Floating.spec.Position → UInt64
  control : Control.spec.Position → UInt64
  tables : List ReservationTable

/-- What a new machine has with a layout: null words, the heap cursor at the heap base, the reset
values of the layout and no reservations. -/
def Architecture.fresh (l : Layout) (harts : Nat) : Architecture where
  layout := l
  memoryLayout := l
  image := .empty (Segments.ofLayout l)
  heap := l.heapBase
  integer := (IntegerFile.ofLayout l).bank.read
  float := FloatFile.initial.bank.read
  control := ControlFile.initial.bank.read
  tables := (Reservations.initial harts).tables

theorem IntegerFile.read_reset {f : IntegerFile} {l : Layout} (h : f.bank.resets = resets l) :
    f.reset.bank.read = (ofLayout l).bank.read := by
  funext i
  rw [bank_reset, Bank.read_foldl_reset _ renews_resetOrder, Bank.resetValue, h]
  rfl

theorem FloatFile.read_reset {f : FloatFile} (h : f.bank.resets = Vector.replicate _ 0) :
    f.reset.bank.read = initial.bank.read := by
  funext i
  change (Floating.block.members.foldl Bank.reset f.bank).read i = _
  rw [Bank.read_foldl_reset _ renews_block, Bank.resetValue, h]
  rfl

theorem ControlFile.read_reset {f : ControlFile} (h : f.bank.resets = Vector.replicate _ 0) :
    f.reset.bank.read = initial.bank.read := by
  funext i
  change (Control.block.members.foldl Bank.reset f.bank).read i = _
  rw [Bank.read_foldl_reset _ renews_block, Bank.resetValue, h]
  rfl

theorem Reservations.tables_reset (r : Reservations) :
    r.reset.state.tables = (initial r.harts).tables := List.map_const' ..

theorem Reservations.reset_reset (r : Reservations) :
    r.reset.state.reset.state = r.reset.state := by
  simp only [reset, changed, List.map_map, Function.comp_def]

namespace Machine
variable {m n : Machine} {l : Layout}

def architecture (m : Machine) : Architecture where
  layout := m.layout
  memoryLayout := m.memory.layout
  image := m.memory.image
  heap := m.memory.heap
  integer := m.integers.bank.read
  float := m.floats.bank.read
  control := m.controls.bank.read
  tables := m.reservations.tables

/-- What is attached to a machine from outside: the observers of its memory, the switch for
programs that change their text, the decoder and the receivers of undo records. -/
structure Keeps (m n : Machine) : Prop where
  registrations : n.memory.registrations = m.memory.registrations
  selfModifying : n.memory.selfModifying = m.memory.selfModifying
  decoder : n.memory.decoder = m.memory.decoder
  sinks : n.memory.sink = m.memory.sink ∧ n.integers.sink = m.integers.sink ∧
    n.floats.sink = m.floats.sink ∧ n.controls.sink = m.controls.sink
  sink : n.sink = m.sink
  log : n.log.map UndoLog.capacity = m.log.map UndoLog.capacity

theorem keeps_laidOut (m : Machine) (catalog : Catalog) : m.Keeps (m.laidOut catalog) where
  registrations := rfl
  selfModifying := rfl
  decoder := rfl
  sinks := by
    rw [laidOut]
    exact ⟨rfl, by rw [IntegerFile.sink_reset, IntegerFile.sink_applyLayout],
      FloatFile.sink_reset _, ControlFile.sink_reset _⟩
  sink := rfl
  log := rfl

theorem keeps_cleared (m : Machine) : m.Keeps m.cleared where
  registrations := rfl
  selfModifying := rfl
  decoder := rfl
  sinks := by
    rw [cleared]
    exact ⟨rfl, IntegerFile.sink_reset _, FloatFile.sink_reset _, ControlFile.sink_reset _⟩
  sink := rfl
  log := by
    rw [cleared, Option.map_map]
    rfl

theorem architecture_laidOut (h : m.Homed l) (catalog : Catalog) :
    (m.laidOut catalog).architecture = .fresh catalog.current m.reservations.harts := by
  have hinteger :=
    IntegerFile.read_reset (IntegerFile.resets_applyLayout h.integers catalog.current)
  have hfloat := FloatFile.read_reset h.floats
  have hcontrol := ControlFile.read_reset h.controls
  rw [architecture, Architecture.fresh, laidOut]
  simp only [hinteger, hfloat, hcontrol, Reservations.tables_reset]
  rfl

theorem architecture_cleared (h : m.Homed l) :
    m.cleared.architecture = { Architecture.fresh l m.reservations.harts with
      layout := m.layout
      memoryLayout := m.memory.layout
      image := .empty (Segments.ofLayout m.memory.layout)
      heap := m.memory.layout.heapBase } := by
  have hinteger := IntegerFile.read_reset h.integers
  have hfloat := FloatFile.read_reset h.floats
  have hcontrol := ControlFile.read_reset h.controls
  rw [architecture, Architecture.fresh, cleared]
  simp only [hinteger, hfloat, hcontrol, Reservations.tables_reset]
  rfl

theorem cleared_cleared (m : Machine) : m.cleared.cleared = m.cleared := by
  have hlog : (m.log.map UndoLog.clear).map UndoLog.clear = m.log.map UndoLog.clear := by
    rw [Option.map_map]
    rfl
  simp only [cleared, IntegerFile.reset_reset, FloatFile.reset_reset, ControlFile.reset_reset,
    Reservations.reset_reset, hlog]
  rfl

/-- On a new machine with the layouts of a catalog, every layout of the catalog can be selected,
and the machine is then fresh with this layout. -/
theorem architecture_new {c d : Catalog} {identifier : String} {changed : Bool}
    (h : c.select identifier = .ok (changed, d)) (harts : Nat) :
    ∃ n s, (initial harts).registerAll c.added = .ok n ∧ n.select identifier = .ok s ∧
      s.state.architecture = .fresh d.current harts := by
  obtain ⟨n, hn⟩ : ∃ n, (initial harts).registerAll c.added = .ok n := registerAll_of_nodup c.nodup
  obtain ⟨hframe, hadded, hselected⟩ := registerAll_frame hn
  obtain ⟨changed', e, he, hcurrent⟩ := Catalog.select_of_added (d := n.catalog) hadded.symm h
  cases changed' with
  | true =>
    refine ⟨n, _, hn, select_of_other he, ?_⟩
    have hhomed : n.Homed Catalog.initial.current := by
      rw [hframe]
      exact ⟨rfl, rfl, rfl⟩
    have hharts : n.reservations.harts = harts := by
      rw [hframe]
      exact List.length_replicate
    rw [architecture_laidOut hhomed, hcurrent, hharts]
  | false =>
    refine ⟨n, _, hn, select_of_same he, ?_⟩
    obtain rfl := Catalog.eq_of_select_false he
    -- the default layout is selected already
    rw [← hcurrent, Catalog.current_of_selected hselected]
    change n.architecture = _
    rw [architecture, layout, Catalog.current_of_selected hselected, hframe]
    rfl

theorem select_fresh (h : m.Homed l) {identifier : String} {s : Step Machine Bool}
    (hs : m.select identifier = .ok s) (hanswer : s.answer = true) :
    (∃ n t, (initial m.reservations.harts).registerAll m.catalog.added = .ok n ∧
      n.select identifier = .ok t ∧ s.state.architecture = t.state.architecture) ∧
    s.state.layout.identifier = identifier ∧
    (∀ seg a, s.state.memory.wordAt? seg a = none) ∧ m.Keeps s.state := by
  rcases m.select_cases identifier with ⟨e, he⟩ | hsame | ⟨catalog, hcatalog, hlaid⟩
  · exact nomatch he.symm.trans hs
  · obtain rfl := Except.ok.inj (hsame.symm.trans hs)
    exact nomatch hanswer
  · obtain rfl := Except.ok.inj (hlaid.symm.trans hs)
    obtain ⟨n, t, hn, ht, hfresh⟩ := architecture_new hcatalog m.reservations.harts
    refine ⟨⟨n, t, hn, ht, ?_⟩, Catalog.identifier_of_select hcatalog, ?_, m.keeps_laidOut catalog⟩
    · rw [hfresh, architecture_laidOut h]
    · exact fun seg a => Image.word?_empty _ seg _

theorem after_select_of_unchanged {identifier : String}
    (h : ¬ ∃ s, m.select identifier = .ok s ∧ s.answer = true) :
    m.after (.select identifier) = m := by
  rcases m.select_cases identifier with ⟨e, he⟩ | hsame | ⟨catalog, hcatalog, hlaid⟩
  · simp only [after, he]
  · simp only [after, hsame]
    rfl
  · exact absurd ⟨_, hlaid, rfl⟩ h

theorem records_cleared {log : UndoLog} (h : m.cleared.log = some log) : log.records = [] := by
  obtain ⟨old, -, rfl⟩ := Option.map_eq_some_iff.mp h
  rfl

theorem backstep_cleared (m : Machine) : m.cleared.backstep = .quiet (.ok false) m.cleared := by
  apply backstep_of_empty
  cases hlog : m.cleared.log with
  | none => exact .inl rfl
  | some log => exact .inr ⟨log, rfl, records_cleared hlog⟩

/-- A switch to another layout and a reset both give a fresh machine. A switch that is made leaves
what a new machine with the same harts and layouts has on which the layout is selected, with null
words only. A switch that is not made changes nothing. A reset leaves a new memory with the layout
of the old one, the reset values of the layout that was applied last in the registers, no
reservations and an empty log, and a second reset changes nothing. Neither touches what is
attached to the machine. -/
theorem select_and_reset_refresh (h : Reached m l) :
    (∀ identifier s, m.select identifier = .ok s → s.answer = true →
      (∃ n t, (initial m.reservations.harts).registerAll m.catalog.added = .ok n ∧
        n.select identifier = .ok t ∧ s.state.architecture = t.state.architecture) ∧
      s.state.layout.identifier = identifier ∧
      (∀ seg a, s.state.memory.wordAt? seg a = none) ∧ m.Keeps s.state) ∧
    (∀ identifier, (¬ ∃ s, m.select identifier = .ok s ∧ s.answer = true) →
      m.after (.select identifier) = m) ∧
    m.reset.state.architecture = { Architecture.fresh l m.reservations.harts with
      layout := m.layout
      memoryLayout := m.memory.layout
      image := (Memory.ofLayout m.memory.layout).image
      heap := (Memory.ofLayout m.memory.layout).heap } ∧
    (∀ log, m.reset.state.log = some log → log.records = []) ∧
    m.reset.state.backstep = .quiet (.ok false) m.reset.state ∧
    m.reset.state.reset.state = m.reset.state ∧ m.Keeps m.reset.state := by
  rw [reset_eq, reset_eq, cleared_cleared]
  refine ⟨?_, ?_, architecture_cleared h.homed, ?_, m.backstep_cleared, rfl, m.keeps_cleared⟩
  · exact fun identifier s hs hanswer => select_fresh h.homed hs hanswer
  · exact fun identifier hnot => after_select_of_unchanged hnot
  · exact fun log hlog => records_cleared hlog

/-- After a store and a write to register 5, a switch to a compact layout leaves null words only,
and a reset leaves zero in the register. -/
theorem refreshed_after_writes :
    let m := ((initial 2).after (.memory fun n => (n.setWord 0x10010000 7).map fun _ => ())).after
      (.integers (.update (.number 5) 9))
    m.Reached Layout.default ∧ m.integers.bank.read (Integer.register 5) = 9 ∧
      (m.memory.rawWord 0x10010000).toOption = some 7 ∧
      (∃ s, m.select "CompactTextAtZero" = .ok s ∧ s.answer = true ∧
        ∀ seg a, s.state.memory.wordAt? seg a = none) ∧
      m.reset.state.integers.bank.read (Integer.register 5) = 0 ∧
      m.reset.state.backstep.answer = .ok false := by
  intro m
  have hm : m.Reached Layout.default := .step (.step (.initial 2) rfl) rfl
  obtain ⟨hselect, -, hreset, -, hbackstep, -⟩ := select_and_reset_refresh hm
  have hswitch : ∃ s, m.select "CompactTextAtZero" = .ok s ∧ s.answer = true := ⟨_, rfl, rfl⟩
  obtain ⟨s, hs, hanswer⟩ := hswitch
  obtain ⟨-, -, hnull, -⟩ := hselect "CompactTextAtZero" s hs hanswer
  refine ⟨hm, by decide +kernel, by decide +kernel, ⟨s, hs, hanswer, hnull⟩, ?_, ?_⟩
  · have hregister := congrArg (fun a => a.integer (Integer.register 5)) hreset
    exact hregister.trans (by decide +kernel)
  · rw [hbackstep]
    rfl

end Machine
end ArchState
