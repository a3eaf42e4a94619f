import ArchState.Proofs.Register.ZeroRegister

/-! # Views of a register

A register with storage and the views of it share one word. Which requests were made to the register
and to its views decides what the word holds, and every view shows the bits of the word that its
mask selects, whatever the masks are and however the writers take turns.
-/
namespace ArchState

/-- Whether `n` is the index of the lowest bit of a mask, or zero for the mask without bits. -/
def IsLowestBit (mask : UInt64) (n : Nat) : Prop :=
  if mask = 0 then n = 0
  else mask.toNat.testBit n = true ∧ ∀ k < n, mask.toNat.testBit k = false

theorem eq_zero_of_testBit {mask : UInt64} (h : ∀ i < 64, mask.toNat.testBit i = false) :
    mask = 0 := by
  apply UInt64.toNat_inj.mp
  apply Nat.eq_of_testBit_eq
  intro i
  rw [UInt64.toNat_zero, Nat.zero_testBit]
  by_cases hi : i < 64
  · exact h i hi
  · -- the mask is too small for this bit
    have hpow := Nat.pow_le_pow_right (n := 2) (by decide) (Nat.le_of_not_lt hi)
    exact Nat.testBit_lt_two_pow (Nat.lt_of_lt_of_le mask.toNat_lt hpow)

theorem testBit_lowestBit {mask : UInt64} (h : mask ≠ 0) :
    mask.toNat.testBit (lowestBit mask) = true := by
  rw [lowestBit]
  cases hfind : (List.range 64).find? fun i => mask.toNat.testBit i with
  | some i => exact List.find?_some hfind
  | none =>
    refine absurd (eq_zero_of_testBit fun i hi => ?_) h
    simpa using List.find?_eq_none.mp hfind i (List.mem_range.mpr hi)

theorem isLowestBit_iff {mask : UInt64} {n : Nat} : IsLowestBit mask n ↔ n = lowestBit mask := by
  by_cases h : mask = 0
  · subst h
    exact Iff.rfl
  rw [IsLowestBit, if_neg h]
  have hset := testBit_lowestBit h
  constructor
  · rintro ⟨hn, hbelow⟩
    rcases Nat.lt_or_ge (lowestBit mask) n with hlt | hge
    · rw [hbelow _ hlt] at hset
      cases hset
    · exact Nat.le_antisymm hge (lowestBit_le hn)
  · rintro rfl
    refine ⟨hset, fun k hk => Bool.eq_false_iff.mpr fun hbit => ?_⟩
    have hle := lowestBit_le hbit
    omega

/-- The value that a register holds, and the value that a reset gives it. -/
structure Holding where
  value : UInt64
  resetTo : UInt64
  deriving DecidableEq, Repr

/-- What a register holds after a request to itself or to a view of it. -/
def Holding.after (h : Holding) (kind : CellKind) : CellRequest → Holding
  | .set value =>
    { h with value :=
        match kind with
        | .plain => value
        | .masked mask => (value &&& ~~~mask) ||| (h.value &&& mask)
        | .readOnly => h.value
        | .view _ mask => setField mask h.value value }
  | .backdoor value =>
    { h with value :=
        match kind with
        | .view _ mask => setField mask h.value value
        | _ => value }
  | .reset =>
    match kind with
    | .view _ _ => h
    | _ => { h with value := h.resetTo }
  | .changeReset value =>
    match kind with
    | .view _ _ => h
    | _ => { h with resetTo := value }
  | .observe _ | .unobserve _ | .unobserveAll => h

def CellRequest.resetValue? : CellRequest → Option UInt64
  | changeReset value => some value
  | _ => none

namespace BankSpec
variable {spec : BankSpec} {i p : spec.Position}

/-- A cell writes to the storage of a register if it is this register or a view of it. -/
theorem owner_eq_iff (hp : spec.isView p = false) :
    spec.owner i = p ↔ i = p ∨ ∃ mask, (spec.cell i).kind = .view p mask := by
  cases hk : (spec.cell i).kind with
  | view base mask =>
    have hne : i ≠ p := by
      rintro rfl
      rw [isView, hk] at hp
      cases hp
    rw [owner_of_view hk]
    constructor
    · rintro rfl
      exact .inr ⟨mask, rfl⟩
    · rintro (hip | ⟨other, hview⟩)
      · exact absurd hip hne
      · cases hview
        rfl
  | plain | masked mask | readOnly =>
    have hview : spec.isView i = false := by rw [isView, hk]
    rw [owner_of_not_view hview]
    simp

end BankSpec

namespace Bank
variable {spec : BankSpec} {b : Bank spec} {i p v : spec.Position} {mask : UInt64}

def serveAll (b : Bank spec) (run : List (spec.Position × CellRequest)) : Bank spec :=
  run.foldl (fun b r => (b.serve r.1 r.2).state) b

def holding (b : Bank spec) (p : spec.Position) : Holding := ⟨b.values.get p, b.resets.get p⟩

theorem read_eq_holding (hp : spec.isView p = false) (b : Bank spec) :
    b.read p = (b.holding p).value := BankSpec.look_of_not_view hp b.values

theorem read_view (hv : (spec.cell v).kind = .view p mask) (b : Bank spec) :
    b.read v = field mask (b.read p) := BankSpec.look_of_view hv b.values

theorem holding_store (b : Bank spec) (i p : spec.Position) (guarded : Bool) (value : UInt64) :
    (b.store i guarded value).2.holding p =
      if spec.owner i = p then
        { b.holding p with value := spec.stored i guarded (b.holding p).value value }
      else b.holding p := by
  rw [holding, get_store]
  split <;> rfl

theorem holding_set (b : Bank spec) (i p : spec.Position) (value : UInt64) :
    (b.set i value).state.holding p =
      if spec.owner i = p then (b.holding p).after (spec.cell i).kind (.set value)
      else b.holding p := by
  cases hk : (spec.cell i).kind with
  | readOnly =>
    have hro : spec.isReadOnly i = true := by rw [BankSpec.isReadOnly, hk]; rfl
    rw [set, if_pos hro]
    exact (ite_self _).symm
  | plain | masked mask | view base mask =>
    have hro : spec.isReadOnly i = false := by rw [BankSpec.isReadOnly, hk]; rfl
    rw [set_of_writable hro, holding_store, BankSpec.stored, hk]
    rfl

theorem holding_backdoor (b : Bank spec) (i p : spec.Position) (value : UInt64) :
    (b.backdoor i value).2.holding p =
      if spec.owner i = p then (b.holding p).after (spec.cell i).kind (.backdoor value)
      else b.holding p := by
  rw [backdoor, holding_store, BankSpec.stored]
  cases (spec.cell i).kind <;> rfl

theorem holding_reset (b : Bank spec) (i p : spec.Position) :
    (b.reset i).holding p =
      if spec.owner i = p then (b.holding p).after (spec.cell i).kind .reset
      else b.holding p := by
  cases hk : (spec.cell i).kind with
  | view base mask =>
    have hi : spec.isView i = true := by rw [BankSpec.isView, hk]
    rw [reset, if_pos hi]
    exact (ite_self _).symm
  | plain | masked mask | readOnly =>
    have hi : spec.isView i = false := by rw [BankSpec.isView, hk]
    have hresets : (b.reset i).resets = b.resets := b.resets_foldl_reset [i]
    rw [BankSpec.owner_of_not_view hi, holding, hresets]
    by_cases hip : i = p
    · subst hip
      rw [if_pos rfl, values_reset_self b hi]
      rfl
    · rw [if_neg hip, values_reset_of_ne b hip]
      rfl

theorem holding_setResetValue (hp : spec.isView p = false) (b : Bank spec) (i : spec.Position)
    (value : UInt64) :
    (b.setResetValue i value).holding p =
      if spec.owner i = p then (b.holding p).after (spec.cell i).kind (.changeReset value)
      else b.holding p := by
  have hother : i ≠ p → (b.setResetValue i value).holding p = b.holding p := fun hip =>
    congrArg (Holding.mk _) (b.resets_setResetValue_of_ne hip value)
  cases hk : (spec.cell i).kind with
  | view base mask =>
    -- what is stored as the reset value of a view is not used
    have hip : i ≠ p := by
      rintro rfl
      rw [BankSpec.isView, hk] at hp
      cases hp
    rw [hother hip]
    exact (ite_self _).symm
  | plain | masked mask | readOnly =>
    rw [BankSpec.owner_of_not_view (by rw [BankSpec.isView, hk])]
    by_cases hip : i = p
    · subst hip
      rw [if_pos rfl]
      exact congrArg (Holding.mk _) (Vector.getElem_set_self ..)
    · rw [if_neg hip, hother hip]

/-- A request changes what a register holds only if it is made to the register or to a view of it.
-/
theorem holding_serve (hp : spec.isView p = false) (b : Bank spec) (i : spec.Position)
    (request : CellRequest) :
    (b.serve i request).state.holding p =
      if spec.owner i = p then (b.holding p).after (spec.cell i).kind request
      else b.holding p := by
  cases request with
  | set value => exact b.holding_set i p value
  | backdoor value => exact b.holding_backdoor i p value
  | reset => exact b.holding_reset i p
  | changeReset value => exact holding_setResetValue hp b i value
  | observe id | unobserve id | unobserveAll => exact (ite_self _).symm

theorem holding_serveAll (hp : spec.isView p = false) (b : Bank spec)
    (run : List (spec.Position × CellRequest)) :
    (b.serveAll run).holding p =
      (run.filter fun r => spec.owner r.1 = p).foldl
        (fun h r => h.after (spec.cell r.1).kind r.2) (b.holding p) := by
  induction run generalizing b with
  | nil => rfl
  | cons r run ih =>
    have hstep : b.serveAll (r :: run) = (b.serve r.1 r.2).state.serveAll run := rfl
    rw [hstep, ih, holding_serve hp, List.filter_cons]
    by_cases howner : spec.owner r.1 = p
    · rw [if_pos howner, if_pos (decide_eq_true howner), List.foldl_cons]
    · rw [if_neg howner, if_neg (by simpa using howner)]

/-- The last reset value that a run gives to a register. -/
def lastReset? (p : spec.Position) (run : List (spec.Position × CellRequest)) : Option UInt64 :=
  (run.filterMap fun r => if r.1 = p then r.2.resetValue? else none).getLast?

theorem get_resets_serve (b : Bank spec) (i p : spec.Position) (request : CellRequest) :
    (b.serve i request).state.resets.get p =
      (if i = p then request.resetValue? else none).getD (b.resets.get p) := by
  cases request with
  | changeReset value =>
    by_cases hip : i = p
    · subst hip
      rw [if_pos rfl]
      exact Vector.getElem_set_self ..
    · rw [if_neg hip]
      exact b.resets_setResetValue_of_ne hip value
  | set value | backdoor value | reset | observe id | unobserve id | unobserveAll =>
    rw [b.resets_serve i rfl]
    split <;> rfl

theorem get_resets_serveAll (b : Bank spec) (run : List (spec.Position × CellRequest))
    (p : spec.Position) :
    (b.serveAll run).resets.get p = (lastReset? p run).getD (b.resets.get p) := by
  induction run generalizing b with
  | nil => rfl
  | cons r run ih =>
    have hstep : b.serveAll (r :: run) = (b.serve r.1 r.2).state.serveAll run := rfl
    rw [hstep, ih, get_resets_serve, lastReset?, lastReset?, List.filterMap_cons]
    cases (if r.1 = p then r.2.resetValue? else none) with
    | none => rfl
    | some value => rw [Option.getD_some, List.getLast?_cons, Option.getD_some]

/-- A write of `value` to a view of the register `p`, which shows the bits of `mask`: it answered
`answer` and left the bank `n`. -/
structure ViewWritten (b : Bank spec) (p v : spec.Position) (mask value answer : UInt64)
    (n : Bank spec) : Prop where
  answered : answer = b.read v
  shown : ∃ shift, IsLowestBit mask shift ∧ n.read v = value &&& (mask >>> UInt64.ofNat shift)
  kept : n.read p &&& ~~~mask = b.read p &&& ~~~mask
  /-- Views that share no bit with this one show what they have shown. -/
  apart : ∀ (w : spec.Position) (other : UInt64), (spec.cell w).kind = .view p other →
    mask &&& other = 0 → n.read w = b.read w

/-- The views of a register are lenses on it. -/
structure Lenses (b : Bank spec) (p : spec.Position) : Prop where
  shows : ∀ (v : spec.Position) (mask : UInt64), (spec.cell v).kind = .view p mask →
    ∃ shift, IsLowestBit mask shift ∧ b.read v = (b.read p &&& mask) >>> UInt64.ofNat shift
  set_view : ∀ (v : spec.Position) (mask value : UInt64), (spec.cell v).kind = .view p mask →
    b.ViewWritten p v mask value (b.set v value).answer (b.set v value).state
  backdoor_view : ∀ (v : spec.Position) (mask value : UInt64), (spec.cell v).kind = .view p mask →
    b.ViewWritten p v mask value (b.backdoor v value).1 (b.backdoor v value).2
  /-- A guarded write keeps the masked bits and answers all bits of the value before. -/
  set_masked : ∀ mask value : UInt64, (spec.cell p).kind = .masked mask →
    (b.set p value).answer = b.read p ∧
      (b.set p value).state.read p &&& mask = b.read p &&& mask ∧
      (b.set p value).state.read p &&& ~~~mask = value &&& ~~~mask
  reset : (b.reset p).read p = b.resets.get p
  reset_view : ∀ (v : spec.Position) (mask : UInt64), (spec.cell v).kind = .view p mask →
    b.reset v = b

/-- A write answers what the cell has shown. -/
theorem answer_store {i : spec.Position} (h : spec.isView (spec.owner i) = false) (b : Bank spec)
    (guarded : Bool) (value : UInt64) : (b.store i guarded value).1 = b.read i := by
  have hstore : (b.store i guarded value).1 =
      spec.previous i (spec.look b.values (spec.owner i)) := by
    rw [BankSpec.look_of_not_view h]
    rfl
  rw [hstore, BankSpec.previous]
  cases hk : (spec.cell i).kind with
  | view base mask => rw [BankSpec.owner_of_view hk, read, BankSpec.look_of_view hk]
  | plain | masked mask | readOnly =>
    rw [BankSpec.owner_of_not_view (by rw [BankSpec.isView, hk])]
    rfl

theorem store_view (hp : spec.isView p = false) (hv : (spec.cell v).kind = .view p mask)
    (b : Bank spec) (guarded : Bool) (value : UInt64) :
    b.ViewWritten p v mask value (b.store v guarded value).1 (b.store v guarded value).2 := by
  have howner : spec.owner v = p := BankSpec.owner_of_view hv
  have hbase : (b.store v guarded value).2.read p = setField mask (b.read p) value := by
    rw [read_eq_holding hp, read_eq_holding hp, holding_store, if_pos howner, BankSpec.stored, hv]
  refine ⟨answer_store (by rw [howner, hp]) b guarded value, ?_, ?_, ?_⟩
  · refine ⟨lowestBit mask, isLowestBit_iff.mpr rfl, ?_⟩
    rw [read_view hv, hbase, field_setField, field, UInt64.and_self]
  · have hapart : mask &&& ~~~mask = 0 := by simp
    rw [hbase, setField_and_of_disjoint hapart]
  · intro w other hw hdisjoint
    rw [read_view hw, read_view hw, hbase, field_setField_of_disjoint hdisjoint]

theorem set_masked (hk : (spec.cell p).kind = .masked mask) (b : Bank spec) (value : UInt64) :
    (b.set p value).answer = b.read p ∧
      (b.set p value).state.read p &&& mask = b.read p &&& mask ∧
      (b.set p value).state.read p &&& ~~~mask = value &&& ~~~mask := by
  have hp : spec.isView p = false := by rw [BankSpec.isView, hk]
  have howner := BankSpec.owner_of_not_view hp
  have hwritable : spec.isReadOnly p = false := by rw [BankSpec.isReadOnly, hk]; rfl
  have hstored : (b.set p value).state.read p = (value &&& ~~~mask) ||| (b.read p &&& mask) := by
    rw [read_eq_holding hp, read_eq_holding hp, holding_set, if_pos howner, hk]
    rfl
  refine ⟨?_, ?_, ?_⟩
  · rw [set_of_writable hwritable]
    exact answer_store (by rw [howner, hp]) b true value
  · rw [hstored, or_and_distrib]
    simp [UInt64.and_assoc]
  · rw [hstored, or_and_distrib]
    simp [UInt64.and_assoc]

theorem lenses (hp : spec.isView p = false) (b : Bank spec) : b.Lenses p where
  shows := fun v mask hv => ⟨lowestBit mask, isLowestBit_iff.mpr rfl, read_view hv b⟩
  set_view := by
    intro v mask value hv
    have hwritable : spec.isReadOnly v = false := by rw [BankSpec.isReadOnly, hv]; rfl
    rw [set_of_writable hwritable]
    exact store_view hp hv b true value
  backdoor_view := fun v mask value hv => store_view hp hv b false value
  set_masked := fun _ value hk => set_masked hk b value
  reset := by
    rw [read_eq_holding hp]
    exact b.values_reset_self hp
  reset_view := by
    intro v mask hv
    rw [Bank.reset, if_pos (by rw [BankSpec.isView, hv])]

/-- The requests to a register and to its views, and no others, decide what the register holds after
a run. In the state after any run the views are lenses on the register, and a reset gives it the
last reset value of the run or, if there is none, the one that it started with. -/
theorem views_are_lenses (hp : spec.isView p = false) (b : Bank spec)
    (run : List (spec.Position × CellRequest)) :
    (∀ i, spec.owner i = p ↔ i = p ∨ ∃ mask, (spec.cell i).kind = .view p mask) ∧
      (b.serveAll run).read p =
        ((run.filter fun r => spec.owner r.1 = p).foldl
          (fun h r => h.after (spec.cell r.1).kind r.2) (b.holding p)).value ∧
      ((b.serveAll run).reset p).read p = (lastReset? p run).getD (b.resets.get p) ∧
      (b.serveAll run).Lenses p := by
  have hlenses := lenses hp (b.serveAll run)
  refine ⟨fun i => BankSpec.owner_eq_iff hp, ?_, ?_, hlenses⟩
  · rw [read_eq_holding hp, holding_serveAll hp]
  · rw [hlenses.reset, get_resets_serveAll]

/-- A masked register with two views that overlap and a view of no bits. -/
def overlapping : BankSpec where
  cells := #[
    ⟨"base", 0, .masked 0xF0⟩,
    ⟨"middle", 1, .view 0 0xFF0⟩,
    ⟨"sparse", 2, .view 0 0x8000000000000A0A⟩,
    ⟨"none", 3, .view 0 0⟩]
  grounded := by decide

/-- A write through a view reaches bits that the register itself keeps, and the other views show
it. -/
theorem overlapping_views_show_writes :
    let base : overlapping.Position := ⟨0, by decide⟩
    let middle : overlapping.Position := ⟨1, by decide⟩
    let sparse : overlapping.Position := ⟨2, by decide⟩
    let none : overlapping.Position := ⟨3, by decide⟩
    let start : Bank overlapping := .initial (Vector.replicate _ 0)
    let c := start.serveAll [(base, .set 0xFFFF), (middle, .set 0x1AB), (base, .changeReset 5),
      (sparse, .reset), (none, .backdoor 7)]
    overlapping.isView base = false ∧ c.read base = 0xFABF ∧ c.read middle = 0xAB ∧
      c.read sparse = 0x505 ∧ c.read none = 0 ∧ (c.reset base).read base = 5 := by
  intro base middle sparse none start c
  have hbase : overlapping.isView base = false := by decide
  obtain ⟨-, hread, hreset, hlenses⟩ := views_are_lenses hbase start
    [(base, .set 0xFFFF), (middle, .set 0x1AB), (base, .changeReset 5), (sparse, .reset),
      (none, .backdoor 7)]
  have hvalue : c.read base = 0xFABF := hread.trans (by decide +kernel)
  obtain ⟨_, hplace, hmiddle⟩ := hlenses.shows middle 0xFF0 rfl
  obtain rfl := isLowestBit_iff.mp hplace
  obtain ⟨_, hplace, hsparse⟩ := hlenses.shows sparse 0x8000000000000A0A rfl
  obtain rfl := isLowestBit_iff.mp hplace
  obtain ⟨_, hplace, hnone⟩ := hlenses.shows none 0 rfl
  obtain rfl := isLowestBit_iff.mp hplace
  rw [hvalue] at hmiddle hsparse hnone
  exact ⟨hbase, hvalue, hmiddle.trans (by decide), hsparse.trans (by decide),
    hnone.trans (by decide), hreset.trans (by decide +kernel)⟩

end Bank
end ArchState
