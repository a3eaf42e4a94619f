import ArchState.Proofs.Register.Fields
import ArchState.Proofs.Register.Request

/-! # Protected bits of the control registers

Ordinary writes keep the reserved bits of `ustatus` and `fcsr` zero and do not reach the counters,
whose numbers are read-only. A counter changes by a reset and through the backdoor alone, so the
requests of these two kinds tell what it holds after a run.
-/
namespace ArchState

namespace BankSpec
variable {spec : BankSpec} {i : spec.Position}

/-- The bits of a cell that guarded writes keep as they are. -/
def reserved (spec : BankSpec) (i : spec.Position) : UInt64 :=
  match (spec.cell i).kind with
  | .masked mask => mask
  | _ => 0

/-- The bits of its base that a view shows. -/
def window (spec : BankSpec) (i : spec.Position) : UInt64 :=
  match (spec.cell i).kind with
  | .view _ mask => mask
  | _ => 0

theorem owner_of_not_view (h : spec.isView i = false) : spec.owner i = i := by
  rw [owner]
  split
  · rename_i hk
    simp [isView, hk] at h
  · rfl

theorem owner_of_view {base : Nat} {mask : UInt64} (h : (spec.cell i).kind = .view base mask) :
    spec.owner i = spec.basePosition i base (spec.base_lt h) := by
  rw [owner]
  split
  · rename_i hk
    rw [h] at hk
    cases hk
    rfl
  · rename_i hk
    exact absurd h (hk base mask)

/-- A guarded write keeps reserved bits zero, also through a view that shows none of them. -/
theorem stored_and_reserved (hwindow : spec.window i &&& spec.reserved (spec.owner i) = 0)
    {old : UInt64} (h : old &&& spec.reserved (spec.owner i) = 0) (value : UInt64) :
    spec.stored i true old value &&& spec.reserved (spec.owner i) = 0 := by
  cases hk : (spec.cell i).kind with
  | plain | readOnly =>
    have hreserved : spec.reserved (spec.owner i) = 0 := by
      rw [owner_of_not_view (by rw [isView, hk]), reserved, hk]
    rw [hreserved, UInt64.and_zero]
  | masked mask =>
    have hreserved : spec.reserved (spec.owner i) = mask := by
      rw [owner_of_not_view (by rw [isView, hk]), reserved, hk]
    rw [hreserved] at h ⊢
    have hvalue : value &&& ~~~mask &&& mask = 0 := by simp [UInt64.and_assoc]
    simp only [stored, hk, if_true]
    rw [or_and_distrib, hvalue, UInt64.zero_or, UInt64.and_assoc, UInt64.and_self, h]
  | view base mask =>
    have hmask : spec.window i = mask := by rw [window, hk]
    rw [hmask] at hwindow
    simp only [stored, hk]
    rw [setField_and_of_disjoint hwindow, h]

end BankSpec

namespace Bank
variable {spec : BankSpec}

/-- Whether all reserved bits of a bank are zero. -/
def Clean (b : Bank spec) : Prop := ∀ i, b.values.get i &&& spec.reserved i = 0

theorem get_store (b : Bank spec) (i j : spec.Position) (guarded : Bool) (value : UInt64) :
    (b.store i guarded value).2.values.get j =
      if spec.owner i = j then spec.stored i guarded (b.values.get j) value
      else b.values.get j := by
  rw [values_store]
  by_cases h : spec.owner i = j
  · subst h
    rw [if_pos rfl]
    exact Vector.getElem_set_self ..
  · rw [if_neg h]
    exact Vector.getElem_set_ne (spec.owner i).isLt j.isLt fun hij => h (Fin.ext hij)

theorem Clean.store {b : Bank spec} (h : b.Clean) {i : spec.Position}
    (hwindow : spec.window i &&& spec.reserved (spec.owner i) = 0) (value : UInt64) :
    (b.store i true value).2.Clean := by
  intro j
  rw [get_store]
  split
  · rename_i howner
    subst howner
    exact BankSpec.stored_and_reserved hwindow (h _) value
  · exact h j

/-- What a view shows after a write through a view of the same base. -/
theorem read_store_view (b : Bank spec) {i j base : spec.Position} {mask other : UInt64}
    (hi : (spec.cell i).kind = .view base mask) (hj : (spec.cell j).kind = .view base other)
    (hbase : spec.isView base = false) (guarded : Bool) (value : UInt64) :
    (b.store i guarded value).2.read j = field other (setField mask (b.values.get base) value) := by
  have howner : spec.owner i = base := BankSpec.owner_of_view hi
  have hlook := BankSpec.look_of_view hj (b.store i guarded value).2.values
  rw [read, hlook, show spec.basePosition j base (spec.base_lt hj) = base from rfl,
    BankSpec.look_of_not_view hbase, get_store, if_pos howner, BankSpec.stored, hi]

theorem Clean.congr {b n : Bank spec} (h : b.Clean) (hvalues : n.values = b.values) :
    n.Clean := by
  rw [Clean, hvalues]
  exact h

end Bank

/-- Whether a key means the number `n`: it is the number, or it is the number after the letter of
the block, or it is the name of a register that has the number. -/
def RegisterBlock.Designates {spec : BankSpec} (block : RegisterBlock spec) (n : Int) :
    RegisterKey → Prop
  | .number k => k = n
  | .name s => block.numeral? s = some n ∨
      ∃ i ∈ block.members, (spec.cell i).name = s ∧ (spec.cell i).number = n

namespace Control

def ustatus : spec.Position := ⟨0, by decide⟩

def fcsr : spec.Position := ⟨1, by decide⟩

def fflags : spec.Position := ⟨2, by decide⟩

def frm : spec.Position := ⟨3, by decide⟩

inductive Counter where
  | cycle
  | time
  | instret
  deriving DecidableEq, Repr

namespace Counter

def position : Counter → spec.Position
  | cycle => ⟨11, by decide⟩
  | time => ⟨12, by decide⟩
  | instret => ⟨13, by decide⟩

/-- The view of the upper half of a counter. -/
def upper : Counter → spec.Position
  | cycle => ⟨14, by decide⟩
  | time => ⟨15, by decide⟩
  | instret => ⟨16, by decide⟩

end Counter

/-- What changes a counter: a reset, or a value for all of it or for its upper half. -/
inductive CounterEvent where
  | reset
  | whole (value : UInt64)
  | upper (value : UInt64)
  deriving DecidableEq, Repr

def CounterEvent.apply (old : UInt64) : CounterEvent → UInt64
  | reset => 0
  | whole value => value
  | upper value => DoubleWord.ofWords (DoubleWord.lowWord old) (DoubleWord.lowWord value)

def Counter.event? (c : Counter) : ControlRequest → Option CounterEvent
  | .backdoor key value =>
    if block.find? key = some c.position then some (.whole value)
    else if block.find? key = some c.upper then some (.upper value)
    else none
  | .reset => some .reset
  | _ => none

theorem isReadOnly_iff {n : Int} : isReadOnly n = true ↔ 0xC00 ≤ n ∧ n ≤ 0xFFF := by
  rw [isReadOnly, beq_iff_eq]
  omega

theorem number_of_byNumber? {n : Int} {i : spec.Position} (h : block.byNumber? n = some i) :
    (spec.cell i).number = n := by
  simpa using List.find?_some h

/-- A key that means a number finds a register of that number or none. -/
theorem number_of_find? {key : RegisterKey} {n : Int} {i : spec.Position}
    (hkey : block.Designates n key) (h : block.find? key = some i) :
    (spec.cell i).number = n := by
  cases key with
  | number k =>
    obtain rfl := hkey
    exact number_of_byNumber? h
  | name s =>
    rw [RegisterBlock.find?, RegisterBlock.byName?] at h
    split at h
    · cases h
    split at h
    · -- the key is a name, and names are neither shared nor numerals
      rename_i j hj
      obtain rfl := Option.some.inj h
      have hmem := List.mem_of_find?_eq_some hj
      have hname : (spec.cell j).name = s := by simpa using List.find?_some hj
      rcases hkey with hnumeral | ⟨k, hk, hsame, hnumber⟩
      · have hnames : ∀ i ∈ block.members, block.numeral? (spec.cell i).name = none := by decide
        rw [← hname, hnames j hmem] at hnumeral
        cases hnumeral
      · have hnames : ∀ i ∈ block.members, ∀ k ∈ block.members,
            (spec.cell k).name = (spec.cell i).name → k = i := by decide
        rw [← hnames j hmem k hk (hsame.trans hname.symm), hnumber]
    · rename_i hnone
      obtain ⟨k, hk, hi⟩ := Option.bind_eq_some_iff.mp h
      rcases hkey with hnumeral | ⟨j, hj, hname, -⟩
      · rw [number_of_byNumber? hi, Option.some.inj (hk.symm.trans hnumeral)]
      · have hnot := List.find?_eq_none.mp hnone j hj
        simp [hname] at hnot

end Control

namespace ControlRequest
open Control

/-- The requests that leave the guards to the file: all but writes to single cells, and through
the backdoor those of registers with read-only numbers. -/
def keepsGuards : ControlRequest → Bool
  | backdoor key _ =>
    match block.find? key with
    | none => true
    | some i => isReadOnly (spec.cell i).number
  | cell _ _ => false
  | _ => true

/-- The register that a request writes, if it may. -/
def target? : ControlRequest → Option spec.Position
  | update key _ | backdoor key _ => block.find? key
  | setBits number _ | clearBits number _ => block.byNumber? number
  | _ => none

/-- The value that a request writes to a register that shows `old`. -/
def written (old : UInt64) : ControlRequest → UInt64
  | update _ value | backdoor _ value => value
  | setBits _ mask => old ||| mask
  | clearBits _ mask => old &&& ~~~mask
  | _ => old

theorem editsReset_of_keepsGuards {r : ControlRequest} (h : r.keepsGuards = true) :
    r.editsReset = false := by
  cases r with
  | cell i request => exact nomatch h
  | update key value | setBits number mask | clearBits number mask | backdoor key value | reset
  | observe id | unobserve id | attach sink => rfl

end ControlRequest

namespace ControlFile
open Control
variable {f : ControlFile} {r : ControlRequest} {key : RegisterKey} {n : Int}

def serveAll (f : ControlFile) (run : List ControlRequest) : ControlFile :=
  run.foldl (fun f r => (f.serve r).state) f

/-- An ordinary write to a read-only number is ignored. -/
theorem update_of_readOnly (hn : isReadOnly n = true) (hkey : block.Designates n key)
    (value : UInt64) : f.update key value = .quiet none f := by
  rw [update]
  cases hfind : block.find? key with
  | none => rfl
  | some i =>
    have hread : isReadOnly (spec.cell i).number = true := by rw [number_of_find? hkey hfind, hn]
    exact write_of_readOnly hread value

/-- Whether an operation on a file answers nothing, changes nothing and sends no record. -/
def Ignored (f : ControlFile) (s : Step ControlFile (Option UInt64)) : Prop :=
  s.answer = none ∧ s.state = f ∧ ∀ sink, Signal.recordsTo sink s.signals = []

theorem modify_of_readOnly (hn : isReadOnly n = true) (change : UInt64 → UInt64) :
    f.Ignored (f.modify n change) := by
  rw [modify]
  cases hfind : block.byNumber? n with
  | none => exact ⟨rfl, rfl, fun _ => rfl⟩
  | some i =>
    have hread : isReadOnly (spec.cell i).number = true := by rw [number_of_byNumber? hfind, hn]
    dsimp only
    rw [write_of_readOnly hread]
    refine ⟨rfl, rfl, fun sink => ?_⟩
    have hquiet : (Step.quiet (none : Option UInt64) f).signals = [] := rfl
    rw [Signal.recordsTo_append, hquiet, Signal.recordsTo_nil, List.append_nil]
    exact f.bank.recordsTo_notify sink i .read

theorem values_write (f : ControlFile) (i : spec.Position) (value : UInt64) :
    (f.write i value).state.bank.values =
      if isReadOnly (spec.cell i).number then f.bank.values
      else (f.bank.store i true value).2.values := by
  cases hread : isReadOnly (spec.cell i).number with
  | true => rw [write_of_readOnly hread]; rfl
  | false =>
    rw [write_of_writable hread, Bank.set_of_writable (isReadOnly_cell i hread)]
    rfl

/-- What a request does to what is stored: nothing, a reset, a guarded write of a register that can
be written, or a write through the backdoor of one with a read-only number. -/
inductive Served (f : ControlFile) (r : ControlRequest) : Prop where
  | kept (values : (f.serve r).state.bank.values = f.bank.values)
      (silent : ∀ c : Counter, c.event? r = none)
      (barred : ∀ i, r.target? = some i → isReadOnly (spec.cell i).number = true)
  | reset (request : r = .reset)
  | guarded (i : spec.Position) (target : r.target? = some i)
      (writable : isReadOnly (spec.cell i).number = false)
      (silent : ∀ c : Counter, c.event? r = none)
      (values : (f.serve r).state.bank.values =
        (f.bank.store i true (r.written (f.bank.read i))).2.values)
  | backdoor (key : RegisterKey) (value : UInt64) (i : spec.Position)
      (request : r = .backdoor key value) (found : block.find? key = some i)
      (barred : isReadOnly (spec.cell i).number = true)
      (values : (f.serve r).state.bank.values = (f.bank.store i false value).2.values)

theorem served_of_kept (values : (f.serve r).state.bank.values = f.bank.values)
    (silent : ∀ c : Counter, c.event? r = none) (target : r.target? = none) : f.Served r := by
  refine .kept values silent fun i hi => ?_
  rw [target] at hi
  cases hi

/-- An ordinary write is made or not by the number of the register that it finds. -/
theorem served_of_write (silent : ∀ c : Counter, c.event? r = none)
    (h : (f.serve r).state.bank.values =
      match r.target? with
      | none => f.bank.values
      | some i => (f.write i (r.written (f.bank.read i))).state.bank.values) : f.Served r := by
  cases htarget : r.target? with
  | none =>
    rw [htarget] at h
    exact served_of_kept h silent htarget
  | some i =>
    rw [htarget] at h
    dsimp only at h
    rw [values_write] at h
    cases hread : isReadOnly (spec.cell i).number with
    | true =>
      rw [hread] at h
      refine .kept h silent fun j hj => ?_
      rw [← Option.some.inj (htarget.symm.trans hj), hread]
    | false =>
      rw [hread] at h
      exact .guarded i htarget hread silent h

theorem served (f : ControlFile) (h : r.keepsGuards = true) : f.Served r := by
  cases r with
  | update key value =>
    refine served_of_write (fun _ => rfl) ?_
    simp only [serve, update, ControlRequest.target?]
    cases block.find? key <;> rfl
  | setBits n mask | clearBits n mask =>
    refine served_of_write (fun _ => rfl) ?_
    simp only [serve, setBits, clearBits, modify, ControlRequest.target?]
    cases block.byNumber? n <;> rfl
  | backdoor key value =>
    cases hfind : block.find? key with
    | none =>
      have hsilent : ∀ c : Counter, c.event? (.backdoor key value) = none := by
        intro c
        simp [Counter.event?, hfind]
      refine served_of_kept ?_ hsilent hfind
      rw [serve, ControlFile.backdoor, hfind]
      rfl
    | some i =>
      have hread : isReadOnly (spec.cell i).number = true := by
        simpa [ControlRequest.keepsGuards, hfind] using h
      refine .backdoor key value i rfl hfind hread ?_
      rw [serve, ControlFile.backdoor, hfind]
      rfl
  | reset => exact .reset rfl
  | observe id =>
    have hvalues : (block.observe f.bank id).values = f.bank.values :=
      Bank.foldl_keeps (f := fun b i => b.observe i id) Bank.values (fun _ _ => rfl) f.bank
        block.members
    exact served_of_kept hvalues (fun _ => rfl) rfl
  | unobserve id =>
    have hvalues : (block.unobserve f.bank id).values = f.bank.values :=
      Bank.foldl_keeps (f := fun b i => (b.unobserve i id).2) Bank.values (fun _ _ => rfl) f.bank
        block.members
    exact served_of_kept hvalues (fun _ => rfl) rfl
  | attach sink => exact served_of_kept rfl (fun _ => rfl) rfl
  | cell i request => cases h

/-- The invariant of runs: reserved bits are zero, and a reset makes all bits zero. -/
structure Guarded (f : ControlFile) : Prop where
  resets : f.bank.resets = Vector.replicate _ 0
  clean : f.bank.Clean

theorem guarded_initial : initial.Guarded := by
  refine ⟨rfl, fun i => ?_⟩
  have hzero : initial.bank.values.get i = 0 := Vector.getElem_replicate ..
  rw [hzero, UInt64.zero_and]

theorem clean_reset (h : f.Guarded) : f.reset.bank.Clean := by
  intro j
  cases hview : spec.isView j with
  | true =>
    have hkept : f.reset.bank.values.get j = f.bank.values.get j :=
      f.bank.values_foldl_reset_of_view block.members hview
    rw [hkept]
    exact h.clean j
  | false =>
    have hreset := f.bank.values_foldl_reset_of_mem (renews_block j hview) hview
    have hzero : f.bank.resets.get j = 0 := by
      rw [h.resets]
      exact Vector.getElem_replicate ..
    have hvalue : f.reset.bank.values.get j = 0 := hreset.trans hzero
    rw [hvalue, UInt64.zero_and]

theorem Guarded.serve (h : f.Guarded) (hr : r.keepsGuards = true) :
    (f.serve r).state.Guarded := by
  have hwindow : ∀ i, spec.window i &&& spec.reserved (spec.owner i) = 0 := by decide
  have hbarred : ∀ i, isReadOnly (spec.cell i).number = true →
      spec.reserved (spec.owner i) = 0 := by decide
  refine ⟨(f.resets_serve (ControlRequest.editsReset_of_keepsGuards hr)).trans h.resets, ?_⟩
  cases f.served hr with
  | kept values => exact h.clean.congr values
  | reset request =>
    rw [request]
    exact clean_reset h
  | guarded i target writable silent values =>
    exact (h.clean.store (hwindow i) _).congr values
  | backdoor key value i request found barred values =>
    intro j
    rw [values, Bank.get_store]
    split
    · rename_i howner
      rw [← howner, hbarred i barred, UInt64.and_zero]
    · exact h.clean j

theorem Guarded.serveAll {run : List ControlRequest} (h : f.Guarded)
    (hrun : ∀ r ∈ run, r.keepsGuards = true) : (f.serveAll run).Guarded := by
  induction run generalizing f with
  | nil => exact h
  | cons r run ih =>
    obtain ⟨hr, hrest⟩ := List.forall_mem_cons.mp hrun
    exact ih (h.serve hr) hrest

theorem read_counter (f : ControlFile) (c : Counter) :
    f.bank.read c.position = f.bank.values.get c.position := by
  have hview : spec.isView c.position = false := by cases c <;> decide
  exact BankSpec.look_of_not_view hview _

/-- A request changes a counter by its event, if it is one for the counter. -/
theorem read_counter_serve (h : f.Guarded) (hr : r.keepsGuards = true) (c : Counter) :
    (f.serve r).state.bank.read c.position =
      ((c.event? r).map (CounterEvent.apply (f.bank.read c.position))).getD
        (f.bank.read c.position) := by
  rw [read_counter, read_counter]
  cases f.served hr with
  | kept values silent =>
    rw [silent, values]
    rfl
  | reset request =>
    subst request
    have hmem : c.position ∈ block.members ∧ spec.isView c.position = false := by
      cases c <;> decide
    have hreset := f.bank.values_foldl_reset_of_mem hmem.1 hmem.2
    have hzero : f.bank.resets.get c.position = 0 := by
      rw [h.resets]
      exact Vector.getElem_replicate ..
    exact hreset.trans hzero
  | guarded i target writable silent values =>
    have howner : ∀ i, isReadOnly (spec.cell i).number = false → spec.owner i ≠ c.position := by
      cases c <;> decide
    rw [silent, values, Bank.get_store, if_neg (howner i writable)]
    rfl
  | backdoor key value i request found barred values =>
    subst request
    have howner : ∀ i, spec.owner i = c.position ↔ i = c.position ∨ i = c.upper := by
      cases c <;> decide
    have hne : c.upper ≠ c.position := by cases c <;> decide
    rw [values, Bank.get_store]
    by_cases hposition : i = c.position
    · have hstored : spec.stored c.position false (f.bank.values.get c.position) value = value := by
        cases c <;> rfl
      rw [if_pos ((howner i).mpr (.inl hposition)), hposition, hstored, Counter.event?,
        if_pos (found.trans (congrArg some hposition))]
      rfl
    by_cases hupper : i = c.upper
    · have hstored : ∀ old, spec.stored c.upper false old value =
          setField upperMask old value := by
        intro old
        cases c <;> rfl
      have hother : block.find? key ≠ some c.position := by
        rw [found, hupper]
        exact fun h => hne (Option.some.inj h)
      rw [if_pos ((howner i).mpr (.inr hupper)), hupper, hstored, setField_upper, Counter.event?,
        if_neg hother, if_pos (found.trans (congrArg some hupper))]
      rfl
    · have hnone : c.event? (.backdoor key value) = none := by
        simp [Counter.event?, found, hposition, hupper]
      rw [if_neg fun h => ((howner i).mp h).elim hposition hupper, hnone]
      rfl

/-- After a run a counter holds what its events make of what it held before. -/
theorem read_counter_serveAll {run : List ControlRequest} (h : f.Guarded)
    (hrun : ∀ r ∈ run, r.keepsGuards = true) (c : Counter) :
    (f.serveAll run).bank.read c.position =
      (run.filterMap c.event?).foldl CounterEvent.apply (f.bank.read c.position) := by
  induction run generalizing f with
  | nil => rfl
  | cons r run ih =>
    obtain ⟨hr, hrest⟩ := List.forall_mem_cons.mp hrun
    have hnext := ih (h.serve hr) hrest
    rw [read_counter_serve h hr] at hnext
    rw [List.filterMap_cons]
    refine hnext.trans ?_
    cases c.event? r <;> rfl

theorem read_views (f : ControlFile) :
    f.bank.read fflags = f.bank.read fcsr &&& 0x1F ∧
      f.bank.read frm = (f.bank.read fcsr &&& 0xE0) >>> 5 ∧
      ∀ c : Counter, f.bank.read c.upper = f.bank.read c.position >>> 32 := by
  have hflags := BankSpec.look_of_view (i := fflags) rfl f.bank.values
  have hrounding := BankSpec.look_of_view (i := frm) rfl f.bank.values
  refine ⟨hflags.trans (field_flags _), hrounding.trans (field_rounding _), fun c => ?_⟩
  have hkind : (spec.cell c.upper).kind = .view c.position upperMask := by cases c <;> rfl
  exact (BankSpec.look_of_view hkind f.bank.values).trans (field_upper _)

theorem values_of_target {i : spec.Position} (hr : r.keepsGuards = true)
    (target : r.target? = some i) (writable : isReadOnly (spec.cell i).number = false) :
    (f.serve r).state.bank.values =
      (f.bank.store i true (r.written (f.bank.read i))).2.values := by
  cases f.served hr with
  | kept values silent barred => exact nomatch writable.symm.trans (barred i target)
  | reset request =>
    subst request
    exact nomatch target
  | guarded j found _ silent values =>
    obtain rfl := Option.some.inj (found.symm.trans target)
    exact values
  | backdoor key value j request found barred values =>
    subst request
    obtain rfl := Option.some.inj (found.symm.trans target)
    exact nomatch writable.symm.trans barred

/-- What a field of `fcsr` shows after a write of one of its fields. -/
theorem read_field_serve {i j : spec.Position} {mask other : UInt64} (hr : r.keepsGuards = true)
    (target : r.target? = some i) (writable : isReadOnly (spec.cell i).number = false)
    (hi : (spec.cell i).kind = .view fcsr mask) (hj : (spec.cell j).kind = .view fcsr other) :
    (f.serve r).state.bank.read j =
      field other (setField mask (f.bank.read fcsr) (r.written (f.bank.read i))) := by
  have hbase : spec.isView fcsr = false := by decide
  have hread : f.bank.read fcsr = f.bank.values.get fcsr := BankSpec.look_of_not_view hbase _
  rw [hread, ← f.bank.read_store_view hi hj hbase true, Bank.read, Bank.read,
    values_of_target hr target writable]

theorem fields_serve (hr : r.keepsGuards = true) :
    let next := (f.serve r).state
    (r.target? = some fflags →
      next.bank.read fflags = r.written (f.bank.read fflags) &&& 0x1F ∧
        next.bank.read frm = f.bank.read frm) ∧
    (r.target? = some frm →
      next.bank.read frm = r.written (f.bank.read frm) &&& 0x7 ∧
        next.bank.read fflags = f.bank.read fflags) := by
  have hflags : (spec.cell fflags).kind = .view fcsr flagsMask := rfl
  have hrounding : (spec.cell frm).kind = .view fcsr roundingMask := rfl
  intro next
  have hdisjoint : flagsMask &&& roundingMask = 0 ∧ roundingMask &&& flagsMask = 0 := by decide
  have hwidth : field flagsMask flagsMask = 0x1F ∧ field roundingMask roundingMask = 0x7 := by
    decide
  constructor
  · intro target
    have hset : next.bank.read fflags = _ := read_field_serve hr target (by decide) hflags hflags
    have hkept : next.bank.read frm = _ := read_field_serve hr target (by decide) hflags hrounding
    rw [hset, hkept, field_setField, hwidth.1, field_setField_of_disjoint hdisjoint.1]
    exact ⟨rfl, (BankSpec.look_of_view hrounding _).symm⟩
  · intro target
    have hset : next.bank.read frm = _ :=
      read_field_serve hr target (by decide) hrounding hrounding
    have hkept : next.bank.read fflags = _ :=
      read_field_serve hr target (by decide) hrounding hflags
    rw [hset, hkept, field_setField, hwidth.2, field_setField_of_disjoint hdisjoint.2]
    exact ⟨rfl, (BankSpec.look_of_view hflags _).symm⟩

/-- Over every run of writes, resets and uses of the backdoor for counters, reserved bits stay
zero and a counter holds what its resets and its values from the backdoor make of zero. A write to
a read-only number, however the number is given, answers nothing, changes nothing and is not
recorded. The fields of `fcsr` and the upper halves of the counters show the bits of their base,
and a write of one field sets it and leaves the other one alone. -/
theorem guards_hold_along_run {run : List ControlRequest}
    (hrun : ∀ r ∈ run, r.keepsGuards = true) :
    let f := initial.serveAll run
    (f.bank.read ustatus &&& ~~~0x11 = 0 ∧ f.bank.read fcsr &&& ~~~0xFF = 0) ∧
      (∀ c : Counter, f.bank.read c.position =
        (run.filterMap c.event?).foldl CounterEvent.apply 0) ∧
      (∀ n, 0xC00 ≤ n → n ≤ 0xFFF →
        (∀ key value, block.Designates n key → f.update key value = .quiet none f) ∧
          ∀ mask, f.Ignored (f.setBits n mask) ∧ f.Ignored (f.clearBits n mask)) ∧
      (f.bank.read fflags = f.bank.read fcsr &&& 0x1F ∧
        f.bank.read frm = (f.bank.read fcsr &&& 0xE0) >>> 5 ∧
        ∀ c : Counter, f.bank.read c.upper = f.bank.read c.position >>> 32) ∧
      ∀ r, r.keepsGuards = true →
        let next := (f.serve r).state
        (r.target? = some fflags →
          next.bank.read fflags = r.written (f.bank.read fflags) &&& 0x1F ∧
            next.bank.read frm = f.bank.read frm) ∧
        (r.target? = some frm →
          next.bank.read frm = r.written (f.bank.read frm) &&& 0x7 ∧
            next.bank.read fflags = f.bank.read fflags) := by
  intro f
  have hguarded : f.Guarded := guarded_initial.serveAll hrun
  have hstored : ∀ i, spec.isView i = false → f.bank.read i &&& spec.reserved i = 0 := by
    intro i hview
    rw [Bank.read, BankSpec.look_of_not_view hview]
    exact hguarded.clean i
  refine ⟨⟨hstored ustatus (by decide), hstored fcsr (by decide)⟩, ?_, ?_, f.read_views,
    fun r hr => fields_serve hr⟩
  · intro c
    have hzero : initial.bank.read c.position = 0 := by
      rw [read_counter]
      exact Vector.getElem_replicate ..
    rw [read_counter_serveAll guarded_initial hrun, hzero]
  · intro n hlow hhigh
    have hn : isReadOnly n = true := isReadOnly_iff.mpr ⟨hlow, hhigh⟩
    refine ⟨fun key value hkey => update_of_readOnly hn hkey value, fun mask => ?_⟩
    exact ⟨modify_of_readOnly hn _, modify_of_readOnly hn _⟩

theorem answer_value {i : spec.Position} (h : block.find? key = some i) :
    (f.value key).answer = some (f.bank.read i) := by
  rw [value, RegisterBlock.value, h]
  rfl

/-- A counter set to a whole value and then in its upper half, with ordinary writes between. -/
theorem counter_set_in_two_steps :
    let run : List ControlRequest :=
      [.update (.name "ustatus") 0xFF, .backdoor (.name "cycle") 0x200000003,
        .update (.name "_3072") 9, .setBits 0xC80 9, .backdoor (.number 0xC80) 5,
        .update (.name "frm") 0x3FF]
    let f := initial.serveAll run
    (∀ r ∈ run, r.keepsGuards = true) ∧
      (f.value (.name "cycle")).answer = some 0x500000003 ∧
      (f.value (.name "cycleh")).answer = some 5 ∧
      (∃ w, (f.value (.name "ustatus")).answer = some w ∧ w &&& ~~~0x11 = 0) ∧
      f.update (.name "_3072") 9 = .quiet none f ∧
      (f.serve (.setBits 1 0xFF)).state.bank.read frm = f.bank.read frm := by
  intro run f
  have hrun : ∀ r ∈ run, r.keepsGuards = true := by decide
  obtain ⟨⟨hustatus, -⟩, hcounter, hread, ⟨-, -, hupper⟩, hfields⟩ := guards_hold_along_run hrun
  have hevents : run.filterMap Counter.cycle.event? = [.whole 0x200000003, .upper 5] := by
    decide +kernel
  have hcycle : f.bank.read Counter.cycle.position = 0x500000003 := by
    rw [hcounter, hevents]
    decide
  refine ⟨hrun, ?_, ?_, ⟨_, answer_value (by decide), hustatus⟩, ?_, ?_⟩
  · rw [answer_value (i := Counter.cycle.position) (by decide), hcycle]
  · rw [answer_value (i := Counter.cycle.upper) (by decide), hupper, hcycle]
    decide
  · refine (hread 0xC00 (by decide) (by decide)).1 _ 9 (.inl ?_)
    decide +kernel
  · exact ((hfields (.setBits 1 0xFF) rfl).1 (by decide)).2

end ControlFile
end ArchState
