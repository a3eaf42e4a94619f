import ArchState.Proofs.Register.NestedViews

/-! # Protected storage

A read-only register keeps all its bits from ordinary writes to it, and a masked one keeps the bits
of its mask. Neither keeps them from ordinary writes to its views, which write as the backdoor does.
So the bits of a register are safe from ordinary writes if no view of the register shows any of
them.
-/
namespace ArchState

/-- A word that is set to the bits of another word, field by field, has these bits there. -/
theorem setField_field_and (mask old other : UInt64) :
    setField mask old (field mask other) &&& mask = other &&& mask := by
  have hfresh : ∀ old value, setField mask old value &&& mask =
      value <<< UInt64.ofNat (lowestBit mask) &&& mask := by
    intro old value
    rw [setField, or_and_distrib, UInt64.and_assoc, UInt64.and_assoc, UInt64.and_self]
    simp
  rw [hfresh, ← hfresh (setField mask other 0), setField_field]

/-- A word agrees with its complement on no bit. -/
theorem eq_zero_of_and_not (old : UInt64) {x : UInt64} (h : ~~~old &&& x = old &&& x) : x = 0 := by
  apply eq_of_getLsbD
  intro i hi
  have hbit := congrArg (fun w : UInt64 => w.toBitVec.getLsbD i) h
  simp only [UInt64.toBitVec_and, UInt64.toBitVec_not, BitVec.getLsbD_and, BitVec.getLsbD_not, hi,
    decide_true, Bool.true_and] at hbit
  cases hx : x.toBitVec.getLsbD i with
  | false => simp
  | true => simp [hx] at hbit

namespace BankSpec
variable {spec : BankSpec} {i p : spec.Position} {keep : UInt64}

/-- The bits of its storage that a register keeps from ordinary writes to it. -/
def protectedBits (spec : BankSpec) (i : spec.Position) : UInt64 :=
  match (spec.cell i).kind with
  | .masked mask => mask
  | .readOnly => allBits
  | _ => 0

/-- Whether the cell at `i` shows none of some bits of `p` as a view of it. -/
def Hides (spec : BankSpec) (p : spec.Position) (keep : UInt64) (i : spec.Position) : Prop :=
  ∀ mask, (spec.cell i).kind = .view p mask → mask &&& keep = 0

/-- An ordinary write keeps protected bits if it is not made through a view of them. -/
theorem stored_and_protected (hkeep : keep &&& spec.protectedBits p = keep)
    (howner : spec.owner i = p) (hwritable : spec.isReadOnly i = false)
    (hhides : spec.Hides p keep i) (old value : UInt64) :
    spec.stored i true old value &&& keep = old &&& keep := by
  cases hk : (spec.cell i).kind with
  | readOnly => simp [isReadOnly, hk] at hwritable
  | view base mask =>
    have hbase : (spec.cell i).kind = .view p mask := by
      rw [← howner, owner_of_view hk]
      exact hk
    rw [stored, hk]
    exact setField_and_of_disjoint (hhides mask hbase) old value
  | plain =>
    obtain rfl : i = p := by rw [← howner, owner_of_not_view (by rw [isView, hk])]
    have hzero : keep = 0 := by simpa [protectedBits, hk] using hkeep.symm
    simp [hzero]
  | masked mask =>
    obtain rfl : i = p := by rw [← howner, owner_of_not_view (by rw [isView, hk])]
    have hmask : mask &&& keep = keep := by
      rwa [protectedBits, hk, UInt64.and_comm] at hkeep
    have hfree : ~~~mask &&& keep = 0 := by rw [← hmask, ← UInt64.and_assoc]; simp
    simp only [stored, hk, if_true, or_and_distrib, UInt64.and_assoc, hfree, hmask]
    simp

end BankSpec

namespace Bank
variable {spec : BankSpec} {i p v : spec.Position} {mask keep : UInt64}

/-- The bank after ordinary writes, one after the other. -/
def setAll (b : Bank spec) (writes : List (spec.Position × UInt64)) : Bank spec :=
  writes.foldl (fun b w => (b.set w.1 w.2).state) b

theorem get_values_set_and (hkeep : keep &&& spec.protectedBits p = keep)
    (hhides : spec.Hides p keep i) (b : Bank spec) (value : UInt64) :
    (b.set i value).state.values.get p &&& keep = b.values.get p &&& keep := by
  cases hwritable : spec.isReadOnly i with
  | true => simp [set, hwritable, Step.quiet]
  | false =>
    rw [set_of_writable hwritable, get_store]
    by_cases howner : spec.owner i = p
    · rw [if_pos howner]
      exact BankSpec.stored_and_protected hkeep howner hwritable hhides _ value
    · rw [if_neg howner]

/-- Protected bits stay what they are along writes that are not made through views of them. -/
theorem get_values_setAll_and (hkeep : keep &&& spec.protectedBits p = keep) (b : Bank spec)
    {writes : List (spec.Position × UInt64)} (hhides : ∀ w ∈ writes, spec.Hides p keep w.1) :
    (b.setAll writes).values.get p &&& keep = b.values.get p &&& keep := by
  induction writes generalizing b with
  | nil => rfl
  | cons w writes ih =>
    obtain ⟨hw, hrest⟩ := List.forall_mem_cons.mp hhides
    have hstep : b.setAll (w :: writes) = (b.set w.1 w.2).state.setAll writes := rfl
    rw [hstep, ih _ hrest, get_values_set_and hkeep hw]

/-- An ordinary write to a view does what a write through the backdoor does. -/
theorem values_set_view (hv : (spec.cell v).kind = .view p mask) (b : Bank spec) (value : UInt64) :
    (b.set v value).state.values = (b.backdoor v value).2.values := by
  have hwritable : spec.isReadOnly v = false := by rw [BankSpec.isReadOnly, hv]; rfl
  rw [set_of_writable hwritable, backdoor, values_store, values_store, BankSpec.stored,
    BankSpec.stored, hv]

/-- By an ordinary write to a view, the bits that it shows become those of any word. -/
theorem get_values_set_view (hv : (spec.cell v).kind = .view p mask) (b : Bank spec)
    (word : UInt64) :
    (b.set v (field mask word)).state.values.get p &&& mask = word &&& mask := by
  have howner : spec.owner v = p := BankSpec.owner_of_view hv
  rw [values_set_view hv, backdoor, get_store, if_pos howner, BankSpec.stored, hv]
  exact setField_field_and mask _ word

/-- Protected bits of a register stay what they are along ordinary writes if none is made through a
view of them. A view gives its bits away, since an ordinary write to it is one through the backdoor.
So no ordinary writes change what a register protects exactly if it has no view that shows any of
it. -/
theorem protected_unless_viewed (b : Bank spec) (p : spec.Position) :
    (∀ keep writes, keep &&& spec.protectedBits p = keep →
      (∀ w ∈ writes, spec.Hides p keep w.1) →
      (b.setAll writes).values.get p &&& keep = b.values.get p &&& keep) ∧
    (∀ v mask, (spec.cell v).kind = .view p mask → ∀ value,
      (b.set v value).state.values = (b.backdoor v value).2.values) ∧
    ((∀ writes, (b.setAll writes).values.get p &&& spec.protectedBits p =
        b.values.get p &&& spec.protectedBits p) ↔
      ∀ v, spec.Hides p (spec.protectedBits p) v) := by
  refine ⟨fun keep writes hkeep hhides => get_values_setAll_and hkeep b hhides,
    fun v mask hv value => values_set_view hv b value, ?_⟩
  constructor
  · intro hsafe v mask hv
    -- a write that turns over all bits that the view shows
    let old := b.values.get p
    let new := (b.set v (field mask (~~~old))).state.values.get p
    have hturned : new &&& mask = ~~~old &&& mask := get_values_set_view hv b (~~~old)
    have hkept : new &&& spec.protectedBits p = old &&& spec.protectedBits p :=
      hsafe [(v, field mask (~~~old))]
    refine eq_zero_of_and_not old ?_
    calc ~~~old &&& (mask &&& spec.protectedBits p)
        = new &&& mask &&& spec.protectedBits p := by rw [hturned, UInt64.and_assoc]
      _ = new &&& spec.protectedBits p &&& mask := by
          rw [UInt64.and_assoc, UInt64.and_comm mask, ← UInt64.and_assoc]
      _ = old &&& (mask &&& spec.protectedBits p) := by
          rw [hkept, UInt64.and_assoc, UInt64.and_comm mask]
  · intro hhides writes
    exact get_values_setAll_and (UInt64.and_self ..) b fun w _ => hhides w.1

/-- A read-only register with a view of its lower half, and a masked one with a view of the bits
that it protects. -/
def exposed : BankSpec where
  cells := #[
    ⟨"cycle", 0, .readOnly⟩,
    ⟨"low", 1, .view 0 0xFFFFFFFF⟩,
    ⟨"status", 2, .masked 0xF0⟩,
    ⟨"reserved", 3, .view 2 0xF0⟩]
  grounded := by decide

/-- Ordinary writes to views change a read-only register and masked bits. -/
theorem views_expose_protected_bits :
    let cycle : exposed.Position := ⟨0, by decide⟩
    let low : exposed.Position := ⟨1, by decide⟩
    let status : exposed.Position := ⟨2, by decide⟩
    let reserved : exposed.Position := ⟨3, by decide⟩
    let start : Bank exposed := .initial (Vector.replicate _ 0)
    let c := start.setAll [(low, 42), (reserved, 0xF)]
    exposed.protectedBits cycle = allBits ∧ start.values.get cycle = 0 ∧
      c.values.get cycle = 42 ∧ exposed.protectedBits status = 0xF0 ∧
      start.values.get status = 0 ∧ c.values.get status = 0xF0 := by
  decide +kernel

end Bank
end ArchState
