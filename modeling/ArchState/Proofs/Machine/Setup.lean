import ArchState.Proofs.Machine.Sinks

/-! # Machines from settings

Three things can be wrong with settings: there are no harts, a layout repeats an identifier, or the
layout to start with is unknown. They are looked for in this order, and of the layouts that repeat
an identifier the first one is reported. Settings without a fault give a machine that is fresh with
the layout to start with.
-/
namespace ArchState

namespace Layout
variable {known layouts : List Layout} {l k : Layout} {i j : Nat}

/-- The layout at place `i` of a list is `l`, whose identifier a layout in `known` or an earlier one
of the list has already. -/
structure TakenAt (known layouts : List Layout) (i : Nat) (l : Layout) : Prop where
  place : layouts[i]? = some l
  taken : ∃ k ∈ known ++ layouts.take i, k.identifier = l.identifier

/-- Of the layouts with an identifier that is taken, `l` at place `i` is the first one. -/
structure FirstTaken (known layouts : List Layout) (i : Nat) (l : Layout) : Prop where
  taken : TakenAt known layouts i l
  first : ∀ j k, TakenAt known layouts j k → i ≤ j

theorem takenAt_zero_iff :
    TakenAt known (l :: layouts) 0 k ↔ k = l ∧ ∃ k ∈ known, k.identifier = l.identifier := by
  constructor
  · rintro ⟨hplace, htaken⟩
    obtain rfl := Option.some.inj hplace
    rw [List.take_zero, List.append_nil] at htaken
    exact ⟨rfl, htaken⟩
  · rintro ⟨rfl, htaken⟩
    refine ⟨rfl, ?_⟩
    rw [List.take_zero, List.append_nil]
    exact htaken

/-- For the layouts after the first one, the first one is known. -/
theorem takenAt_succ_iff :
    TakenAt known (l :: layouts) (i + 1) k ↔ TakenAt (known ++ [l]) layouts i k := by
  have hearlier : known ++ (l :: layouts).take (i + 1) = known ++ [l] ++ layouts.take i := by
    rw [List.take_succ_cons, List.append_assoc, List.singleton_append]
  constructor
  · rintro ⟨hplace, htaken⟩
    exact ⟨hplace, hearlier ▸ htaken⟩
  · rintro ⟨hplace, htaken⟩
    exact ⟨hplace, hearlier ▸ htaken⟩

theorem FirstTaken.unique (hl : FirstTaken known layouts i l) (hk : FirstTaken known layouts j k) :
    l = k := by
  obtain rfl : i = j := Nat.le_antisymm (hl.first j k hk.taken) (hk.first i l hl.taken)
  exact Option.some.inj (hl.taken.place.symm.trans hk.taken.place)

end Layout

namespace Settings

/-- What is wrong with settings. Of several faults only the one that is reported is counted. -/
inductive HasFault (s : Settings) : SetupError → Prop where
  | noHarts : s.reservations.harts = 0 → HasFault s .noHarts
  | duplicate {i : Nat} {l : Layout} : s.reservations.harts ≠ 0 →
      Layout.FirstTaken Layout.builtin s.memory.layouts i l →
      HasFault s (.layout (.duplicate l.identifier))
  | unknown : s.reservations.harts ≠ 0 →
      (∀ i l, ¬ Layout.TakenAt Layout.builtin s.memory.layouts i l) →
      (∀ l ∈ Layout.builtin ++ s.memory.layouts, l.identifier ≠ s.memory.configuration) →
      HasFault s (.layout (.unknown s.memory.configuration))

/-- Settings without a fault, to start with the layout `l`. -/
structure StartsWith (s : Settings) (l : Layout) : Prop where
  harts : s.reservations.harts ≠ 0
  distinct : ∀ i l, ¬ Layout.TakenAt Layout.builtin s.memory.layouts i l
  known : l ∈ Layout.builtin ++ s.memory.layouts
  identifier : l.identifier = s.memory.configuration

variable {s : Settings} {e e' : SetupError}

theorem HasFault.unique (h : s.HasFault e) (h' : s.HasFault e') : e = e' := by
  cases h with
  | noHarts hzero =>
    cases h' with
    | noHarts _ => rfl
    | duplicate hharts _ => exact absurd hzero hharts
    | unknown hharts _ _ => exact absurd hzero hharts
  | duplicate hharts hfirst =>
    cases h' with
    | noHarts hzero => exact absurd hzero hharts
    | duplicate _ hfirst' => rw [hfirst.unique hfirst']
    | unknown _ hdistinct _ => exact absurd hfirst.taken (hdistinct _ _)
  | unknown hharts hdistinct _ =>
    cases h' with
    | noHarts hzero => exact absurd hzero hharts
    | duplicate _ hfirst => exact absurd hfirst.taken (hdistinct _ _)
    | unknown _ _ _ => rfl

theorem HasFault.not_startsWith {l : Layout} (h : s.HasFault e) : ¬ s.StartsWith l := by
  intro hl
  cases h with
  | noHarts hzero => exact hl.harts hzero
  | duplicate _ hfirst => exact hl.distinct _ _ hfirst.taken
  | unknown _ _ hunknown => exact hunknown l hl.known hl.identifier

end Settings

namespace Machine
variable {m n : Machine} {s : Settings} {l : Layout}

/-- Layouts are registered one by one up to the first one with an identifier that is taken. -/
theorem registerAll_decided (m : Machine) (layouts : List Layout) :
    ((∃ n, m.registerAll layouts = .ok n) ∧
      ∀ i l, ¬ Layout.TakenAt m.catalog.layouts layouts i l) ∨
    ∃ i l, Layout.FirstTaken m.catalog.layouts layouts i l ∧
      m.registerAll layouts = .error (.duplicate l.identifier) := by
  induction layouts generalizing m with
  | nil => exact .inl ⟨⟨m, rfl⟩, fun i l htaken => nomatch htaken.place⟩
  | cons l layouts ih =>
    have hcons : m.registerAll (l :: layouts) =
        (m.register l).bind fun n => n.registerAll layouts := rfl
    by_cases hmem : l.identifier ∈ m.catalog.identifiers
    · right
      refine ⟨0, l, ⟨?_, fun j k _ => Nat.zero_le j⟩, ?_⟩
      · exact Layout.takenAt_zero_iff.mpr ⟨rfl, Catalog.mem_identifiers_iff.mp hmem⟩
      · rw [hcons, register, Catalog.register_of_mem hmem]
        rfl
    · obtain ⟨catalog, hcatalog⟩ := Catalog.register_of_not_mem hmem
      have hlayouts := Catalog.layouts_of_register hcatalog
      have hrest : m.registerAll (l :: layouts) = registerAll { m with catalog } layouts := by
        rw [hcons, register, hcatalog]
        rfl
      have hhead : ∀ k, ¬ Layout.TakenAt m.catalog.layouts (l :: layouts) 0 k := by
        intro k htaken
        exact hmem (Catalog.mem_identifiers_iff.mpr (Layout.takenAt_zero_iff.mp htaken).2)
      rw [hrest]
      rcases ih { m with catalog } with ⟨hok, hfree⟩ | ⟨i, k, hfirst, herror⟩
      · refine .inl ⟨hok, ?_⟩
        intro i k htaken
        cases i with
        | zero => exact hhead k htaken
        | succ i =>
          rw [Layout.takenAt_succ_iff, ← hlayouts] at htaken
          exact hfree i k htaken
      · refine .inr ⟨i + 1, k, ⟨?_, ?_⟩, herror⟩
        · rw [Layout.takenAt_succ_iff, ← hlayouts]
          exact hfirst.taken
        · intro j k' htaken
          cases j with
          | zero => exact absurd htaken (hhead k')
          | succ j =>
            rw [Layout.takenAt_succ_iff, ← hlayouts] at htaken
            exact Nat.succ_le_succ (hfirst.first j k' htaken)

theorem select_decided (m : Machine) (identifier : String) :
    (identifier ∉ m.catalog.identifiers ∧ m.select identifier = .error (.unknown identifier)) ∨
      (identifier ∈ m.catalog.identifiers ∧ ∃ selected, m.select identifier = .ok selected) := by
  by_cases hknown : identifier ∈ m.catalog.identifiers
  · obtain ⟨catalog, hselect, -⟩ := Catalog.select_of_mem hknown
    cases hchanged : identifier != m.catalog.current.identifier with
    | false => exact .inr ⟨hknown, _, select_of_same (hchanged ▸ hselect)⟩
    | true => exact .inr ⟨hknown, _, select_of_other (hchanged ▸ hselect)⟩
  · refine .inl ⟨hknown, ?_⟩
    rw [select, Catalog.select_of_not_mem hknown]
    rfl

theorem catalog_of_select {identifier : String} {selected : Step Machine Bool}
    (h : m.select identifier = .ok selected) :
    ∃ changed, m.catalog.select identifier = .ok (changed, selected.state.catalog) := by
  cases hcatalog : m.catalog.select identifier with
  | error e =>
    rw [select, hcatalog] at h
    cases h
  | ok result =>
    obtain ⟨changed, catalog⟩ := result
    cases changed with
    | false =>
      obtain rfl := Except.ok.inj ((select_of_same hcatalog).symm.trans h)
      obtain rfl := Catalog.eq_of_select_false hcatalog
      exact ⟨false, rfl⟩
    | true =>
      obtain rfl := Except.ok.inj ((select_of_other hcatalog).symm.trans h)
      exact ⟨true, rfl⟩

/-- The machine with the general settings applied to it. -/
def equipped (m : Machine) (g : GeneralSettings) : Machine :=
  let m := { m with
    memory := { m.memory with selfModifying := g.selfModifying }
    startAtMain := g.startAtMain }
  if g.backstep then { m with log := some (.empty g.backstepLimit) }.attach (some .log) else m

theorem ofSettings_of_no_harts (h : s.reservations.harts = 0) : ofSettings s = .error .noHarts := by
  rw [ofSettings, if_pos h]
  rfl

theorem ofSettings_of_harts (h : s.reservations.harts ≠ 0) :
    ofSettings s = (((initial s.reservations.harts).registerAll s.memory.layouts).bind fun n =>
      (n.select s.memory.configuration).map fun selected =>
        selected.state.equipped s.general).mapError .layout := by
  unfold ofSettings
  rw [if_neg h]
  cases (initial s.reservations.harts).registerAll s.memory.layouts with
  | error e => rfl
  | ok n =>
    change (((n.select s.memory.configuration).mapError SetupError.layout).bind _) = _
    cases hs : n.select s.memory.configuration with
    | error e =>
      change _ = ((n.select s.memory.configuration).map _).mapError _
      rw [hs]
      rfl
    | ok selected =>
      change _ = ((n.select s.memory.configuration).map _).mapError _
      rw [hs]
      by_cases hb : s.general.backstep = true
      · change (if s.general.backstep = true then _ else _) = Except.ok (equipped _ _)
        rw [if_pos hb, equipped, if_pos hb]
        rfl
      · change (if s.general.backstep = true then _ else _) = Except.ok (equipped _ _)
        rw [if_neg hb, equipped, if_neg hb]
        rfl

/-- Settings with a fault give this fault, and those without one give a machine. -/
theorem ofSettings_decided (s : Settings) :
    (∃ e, s.HasFault e ∧ ofSettings s = .error e) ∨
      ∃ l m, s.StartsWith l ∧ ofSettings s = .ok m := by
  by_cases hharts : s.reservations.harts = 0
  · exact .inl ⟨_, .noHarts hharts, ofSettings_of_no_harts hharts⟩
  · rw [ofSettings_of_harts hharts]
    rcases registerAll_decided (initial s.reservations.harts) s.memory.layouts with
      ⟨⟨n, hn⟩, hdistinct⟩ | ⟨i, l, hfirst, herror⟩
    · have hlayouts : n.catalog.layouts = Layout.builtin ++ s.memory.layouts := by
        rw [Catalog.layouts, (registerAll_frame hn).2.1]
        rfl
      rw [hn]
      rcases n.select_decided s.memory.configuration with
        ⟨hunknown, hselect⟩ | ⟨hknown, selected, hselect⟩
      · refine .inl ⟨_, .unknown hharts hdistinct ?_, ?_⟩
        · intro l hl hidentifier
          exact hunknown (Catalog.mem_identifiers_iff.mpr ⟨l, hlayouts ▸ hl, hidentifier⟩)
        · simp only [Except.bind, hselect]
          rfl
      · obtain ⟨l, hl, hidentifier⟩ := Catalog.mem_identifiers_iff.mp hknown
        refine .inr ⟨l, selected.state.equipped s.general,
          ⟨hharts, hdistinct, hlayouts ▸ hl, hidentifier⟩, ?_⟩
        simp only [Except.bind, hselect]
        rfl
    · exact .inl ⟨_, .duplicate hharts hfirst, by rw [herror]; rfl⟩

/-- What settings say about a machine that starts with the layout `l`. -/
structure BuiltFrom (m : Machine) (s : Settings) (l : Layout) : Prop where
  layouts : m.catalog.layouts = Layout.builtin ++ s.memory.layouts
  selected : m.layout = l
  memoryLayout : m.memory.layout = l
  heap : m.memory.heap = l.heapBase
  stackPointer : (m.integers.value (.number 2)).answer = some l.stackPointer.toUInt64
  globalPointer : (m.integers.value (.number 3)).answer = some l.globalPointer.toUInt64
  programCounter : m.integers.pc.answer = l.textBase
  tables : m.reservations.tables = List.replicate s.reservations.harts .empty
  fresh : m.architecture = .fresh l s.reservations.harts
  selfModifying : m.memory.selfModifying = s.general.selfModifying
  startAtMain : m.startAtMain = s.general.startAtMain
  log : m.log = if s.general.backstep then some (.empty s.general.backstepLimit) else none
  sends : m.SendsTo (if s.general.backstep then some .log else none)
  backstep : m.backstep = .quiet (.ok false) m

theorem value_of_fresh {harts : Nat} (h : m.architecture = .fresh l harts) :
    (m.integers.value (.number 2)).answer = some l.stackPointer.toUInt64 ∧
      (m.integers.value (.number 3)).answer = some l.globalPointer.toUInt64 ∧
      m.integers.pc.answer = l.textBase := by
  have hread : ∀ i, m.integers.bank.read i = (IntegerFile.resets l).get i := by
    intro i
    have hplain : Integer.spec.isView i = false := by
      rw [BankSpec.isView, Integer.kind_plain i]
    have hfresh : m.integers.bank.read i = (IntegerFile.ofLayout l).bank.read i :=
      congrArg (fun a => a.integer i) h
    exact hfresh.trans (BankSpec.look_of_not_view hplain _)
  refine ⟨?_, ?_, ?_⟩
  · exact congrArg some (hread Integer.stackPointer)
  · exact congrArg some (hread Integer.globalPointer)
  · exact (congrArg UInt64.toUInt32 (hread Integer.programCounter)).trans
      (UInt32.toUInt32_toUInt64 _)

/-- A machine that is built is fresh with the layout that is selected. -/
theorem architecture_built (h : ofSettings s = .ok m) :
    m.architecture = .fresh m.layout s.reservations.harts := by
  obtain ⟨n, selected, hregister, hselect, hm⟩ := ofSettings_eq_ok h
  obtain ⟨-, hadded, -⟩ := registerAll_frame hregister
  have hbuilt : m.architecture = selected.state.architecture := by
    rw [hm]
    dsimp only
    split <;> rfl
  have hlayout : m.layout = selected.state.layout := congrArg Architecture.layout hbuilt
  obtain ⟨changed, hcatalog⟩ := catalog_of_select hselect
  obtain ⟨n', selected', hregister', hselect', hfresh⟩ :=
    architecture_new hcatalog s.reservations.harts
  have hlayouts : n.catalog.added = s.memory.layouts := hadded
  rw [hlayouts] at hregister'
  obtain rfl := Except.ok.inj (hregister.symm.trans hregister')
  obtain rfl := Except.ok.inj (hselect.symm.trans hselect')
  rw [hbuilt, hlayout]
  exact hfresh

theorem layouts_built (h : ofSettings s = .ok m) :
    m.catalog.layouts = Layout.builtin ++ s.memory.layouts ∧
      m.layout.identifier = s.memory.configuration := by
  obtain ⟨n, selected, hregister, hselect, hm⟩ := ofSettings_eq_ok h
  obtain ⟨-, hadded, -⟩ := registerAll_frame hregister
  have hlayouts : n.catalog.layouts = Layout.builtin ++ s.memory.layouts := by
    rw [Catalog.layouts, hadded]
    rfl
  have hbuilt : m.catalog = selected.state.catalog := by
    rw [hm]
    dsimp only
    split <;> rfl
  obtain ⟨changed, hcatalog⟩ := catalog_of_select hselect
  rw [layout, hbuilt, Catalog.layouts, Catalog.added_of_select hcatalog]
  exact ⟨hlayouts, Catalog.identifier_of_select hcatalog⟩

/-- The log of a machine that is built is the one that the settings ask for, and it is empty. -/
theorem log_built (h : ofSettings s = .ok m) :
    m.log = if s.general.backstep then some (.empty s.general.backstepLimit) else none := by
  obtain ⟨n, selected, hregister, hselect, rfl⟩ := ofSettings_eq_ok h
  dsimp only
  split
  · rfl
  · have hlog : selected.state.log = n.log := log_select hselect
    exact hlog.trans (by rw [(registerAll_frame hregister).1]; rfl)

theorem builtFrom_of_ok (h : ofSettings s = .ok m) (hl : s.StartsWith l) : m.BuiltFrom s l := by
  obtain ⟨hlayouts, hidentifier⟩ := layouts_built h
  obtain rfl : l = m.layout := by
    apply Catalog.eq_of_identifier (c := m.catalog)
    · rw [hlayouts]
      exact hl.known
    · exact List.get_mem _ _
    · rw [hidentifier, hl.identifier]
  have hfresh := architecture_built h
  obtain ⟨hsp, hgp, hpc⟩ := value_of_fresh hfresh
  have hlog := log_built h
  have hset : m.memory.selfModifying = s.general.selfModifying ∧
      m.startAtMain = s.general.startAtMain := by
    obtain ⟨n, selected, -, -, rfl⟩ := ofSettings_eq_ok h
    dsimp only
    split <;> exact ⟨rfl, rfl⟩
  refine
    { layouts := hlayouts
      selected := rfl
      memoryLayout := congrArg Architecture.memoryLayout hfresh
      heap := congrArg Architecture.heap hfresh
      stackPointer := hsp
      globalPointer := hgp
      programCounter := hpc
      tables := congrArg Architecture.tables hfresh
      fresh := hfresh
      selfModifying := hset.1
      startAtMain := hset.2
      log := hlog
      sends := sendsTo_built h
      backstep := backstep_of_empty ?_ }
  rw [hlog]
  split
  · exact .inr ⟨_, rfl, rfl⟩
  · exact .inl rfl

/-- Settings decide about the machine. Building it fails with an error exactly if the settings have
this fault: there are no harts, or a layout repeats an identifier and is the first one to do so, or
the layout to start with is unknown. It succeeds exactly if the settings can start with a layout,
and then the machine is what the settings say, with this layout. -/
theorem settings_decide_machine (s : Settings) :
    (∀ e, ofSettings s = .error e ↔ s.HasFault e) ∧
    ((∃ m, ofSettings s = .ok m) ↔ ∃ l, s.StartsWith l) ∧
    ∀ m l, ofSettings s = .ok m → s.StartsWith l → m.BuiltFrom s l := by
  refine ⟨?_, ?_, fun m l => builtFrom_of_ok⟩
  · intro e
    rcases ofSettings_decided s with ⟨e', hfault, herror⟩ | ⟨l, m, hstarts, hok⟩
    · rw [herror]
      constructor
      · intro h
        exact Except.error.inj h ▸ hfault
      · intro h
        rw [h.unique hfault]
    · rw [hok]
      exact ⟨nofun, fun h => absurd hstarts h.not_startsWith⟩
  · rcases ofSettings_decided s with ⟨e, hfault, herror⟩ | ⟨l, m, hstarts, hok⟩
    · constructor
      · rintro ⟨m, hok⟩
        cases herror.symm.trans hok
      · rintro ⟨l, hstarts⟩
        exact absurd hstarts hfault.not_startsWith
    · exact ⟨fun _ => ⟨l, hstarts⟩, fun _ => ⟨m, hok⟩⟩

/-- A machine starts with a layout of one's own. If this layout is given twice, this is the fault,
even if the layout to start with is unknown as well. -/
theorem own_layout_started :
    let l : Layout := { Layout.compactTextAtZero with identifier := "Own" }
    let s : Settings :=
      { general := { backstep := true, backstepLimit := 4 }
        memory := { configuration := "Own", layouts := [l] }
        reservations := { harts := 2 } }
    let twice : Settings := { s with memory := { configuration := "Missing", layouts := [l, l] } }
    (∃ m, ofSettings s = .ok m ∧ s.StartsWith l ∧ m.BuiltFrom s l) ∧
      ofSettings twice = .error (.layout (.duplicate "Own")) := by
  intro l s twice
  have hnew : ∀ layouts k, ¬ Layout.TakenAt Layout.builtin (l :: layouts) 0 k := by
    intro layouts k htaken
    obtain ⟨-, known, hknown, hidentifier⟩ := Layout.takenAt_zero_iff.mp htaken
    have hbuiltin : ∀ known ∈ Layout.builtin, known.identifier ≠ "Own" := by decide
    exact hbuiltin known hknown hidentifier
  have hstarts : s.StartsWith l := by
    refine ⟨by decide, ?_, List.mem_append_right _ List.mem_cons_self, rfl⟩
    intro i k htaken
    cases i with
    | zero => exact hnew [] k htaken
    | succ i => cases htaken.place
  have hfirst : Layout.FirstTaken Layout.builtin [l, l] 1 l := by
    refine ⟨⟨rfl, l, List.mem_append_right _ List.mem_cons_self, rfl⟩, ?_⟩
    intro j k htaken
    cases j with
    | zero => exact absurd htaken (hnew [l] k)
    | succ j => exact Nat.le_add_left 1 j
  obtain ⟨-, hok, hbuilt⟩ := settings_decide_machine s
  obtain ⟨m, hm⟩ := hok.mpr ⟨l, hstarts⟩
  have hharts : twice.reservations.harts ≠ 0 := by decide
  have hfault : twice.HasFault (.layout (.duplicate "Own")) := .duplicate hharts hfirst
  obtain ⟨hfail, -, -⟩ := settings_decide_machine twice
  exact ⟨⟨m, hm, hstarts, hbuilt m l hm hstarts⟩, (hfail _).mpr hfault⟩

end Machine
end ArchState
