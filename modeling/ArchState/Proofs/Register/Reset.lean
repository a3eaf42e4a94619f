import ArchState.Register.Control
import ArchState.Register.Float
import ArchState.Register.Integer

/-! # Resetting registers

A reset stores the reset value of every cell of a block that has storage of its own, and leaves
views alone. What a view shows comes from the cells below it, so after a reset of all cells with
storage every cell shows what it would show if the reset values were stored.
-/
namespace ArchState

namespace BankSpec
variable {spec : BankSpec}

/-- What cells show depends on the storage of the cells that are not views. -/
theorem look_congr {store other : Vector UInt64 spec.size}
    (h : ∀ i, spec.isView i = false → store.get i = other.get i) (i : spec.Position) :
    spec.look store i = spec.look other i := by
  induction hn : i.val using Nat.strongRecOn generalizing i with
  | ind n ih =>
    by_cases hview : spec.isView i = false
    · rw [look_of_not_view hview, look_of_not_view hview, h i hview]
    · have hkind : ∃ base mask, (spec.cell i).kind = .view base mask := by
        cases hk : (spec.cell i).kind with
        | view base mask => exact ⟨base, mask, rfl⟩
        | plain | masked mask | readOnly => simp [isView, hk] at hview
      obtain ⟨base, mask, hk⟩ := hkind
      have hbase := ih base (hn ▸ spec.base_lt hk) (spec.basePosition i base (spec.base_lt hk)) rfl
      rw [look_of_view hk, look_of_view hk, hbase]

end BankSpec

namespace Bank
variable {spec : BankSpec}

theorem values_reset_self (b : Bank spec) {i : spec.Position} (h : spec.isView i = false) :
    (b.reset i).values.get i = b.resets.get i := by
  rw [reset, h]
  exact Vector.getElem_set_self ..

theorem values_reset_of_ne (b : Bank spec) {i j : spec.Position} (h : i ≠ j) :
    (b.reset i).values.get j = b.values.get j := by
  unfold reset
  split
  · rfl
  · exact Vector.getElem_set_ne i.isLt j.isLt fun hij => h (Fin.ext hij)

theorem values_reset_of_view (b : Bank spec) {i j : spec.Position} (h : spec.isView j = true) :
    (b.reset i).values.get j = b.values.get j := by
  by_cases hij : i = j
  · subst hij
    rw [reset, if_pos h]
  · exact b.values_reset_of_ne hij

/-- A reset changes what is stored, not the reset values and the observers. -/
theorem foldl_reset_frame (b : Bank spec) (is : List spec.Position) :
    is.foldl reset b = { b with values := (is.foldl reset b).values } := by
  induction is generalizing b with
  | nil => rfl
  | cons i is ih =>
    have hone : b.reset i = { b with values := (b.reset i).values } := by
      unfold reset
      split <;> rfl
    rw [List.foldl_cons, ih (b.reset i), hone]

theorem resets_foldl_reset (b : Bank spec) (is : List spec.Position) :
    (is.foldl reset b).resets = b.resets := by
  rw [foldl_reset_frame]

theorem values_foldl_reset_of_not_mem (b : Bank spec) {is : List spec.Position}
    {j : spec.Position} (h : j ∉ is) : (is.foldl reset b).values.get j = b.values.get j := by
  induction is generalizing b with
  | nil => rfl
  | cons i is ih =>
    have hij : i ≠ j := fun hij => h (hij ▸ List.mem_cons_self)
    have his : j ∉ is := fun his => h (List.mem_cons_of_mem i his)
    rw [List.foldl_cons, ih _ his, values_reset_of_ne _ hij]

theorem values_foldl_reset_of_view (b : Bank spec) (is : List spec.Position) {j : spec.Position}
    (h : spec.isView j = true) : (is.foldl reset b).values.get j = b.values.get j := by
  induction is generalizing b with
  | nil => rfl
  | cons i is ih => rw [List.foldl_cons, ih, values_reset_of_view _ h]

theorem values_foldl_reset_of_mem (b : Bank spec) {is : List spec.Position} {j : spec.Position}
    (h : j ∈ is) (hview : spec.isView j = false) :
    (is.foldl reset b).values.get j = b.resets.get j := by
  induction is generalizing b with
  | nil => exact absurd h List.not_mem_nil
  | cons i is ih =>
    have hresets : (b.reset i).resets = b.resets := b.resets_foldl_reset [i]
    rw [List.foldl_cons]
    by_cases his : j ∈ is
    · rw [ih _ his, hresets]
    · obtain rfl : j = i := (List.mem_cons.mp h).resolve_right his
      rw [values_foldl_reset_of_not_mem _ his, values_reset_self _ hview]

/-- Whether a reset of some cells reaches all storage. -/
def Renews (is : List spec.Position) : Prop := ∀ i, spec.isView i = false → i ∈ is

instance (is : List spec.Position) : Decidable (Renews is) :=
  inferInstanceAs (Decidable (∀ i, spec.isView i = false → i ∈ is))

theorem read_foldl_reset (b : Bank spec) {is : List spec.Position} (h : Renews is)
    (i : spec.Position) : (is.foldl reset b).read i = b.resetValue i := by
  refine BankSpec.look_congr ?_ i
  intro j hj
  exact b.values_foldl_reset_of_mem (h j hj) hj

/-- A second reset finds the reset values already stored. -/
theorem foldl_reset_twice (b : Bank spec) (is : List spec.Position) :
    is.foldl reset (is.foldl reset b) = is.foldl reset b := by
  have hstored : ∀ j : spec.Position,
      (is.foldl reset (is.foldl reset b)).values.get j = (is.foldl reset b).values.get j := by
    intro j
    cases hview : spec.isView j with
    | true => exact values_foldl_reset_of_view _ is hview
    | false =>
      by_cases hj : j ∈ is
      · rw [values_foldl_reset_of_mem _ hj hview, values_foldl_reset_of_mem _ hj hview,
          resets_foldl_reset]
      · exact values_foldl_reset_of_not_mem _ hj
  have hvalues : (is.foldl reset (is.foldl reset b)).values = (is.foldl reset b).values :=
    Vector.ext fun i hi => hstored ⟨i, hi⟩
  rw [foldl_reset_frame (is.foldl reset b), hvalues]

end Bank

namespace IntegerFile
open Integer

def resetOrder : List spec.Position := block.members ++ [programCounter]

theorem renews_resetOrder : Bank.Renews resetOrder := by decide

theorem bank_reset (f : IntegerFile) : f.reset.bank = resetOrder.foldl Bank.reset f.bank := by
  rw [resetOrder, List.foldl_append]
  rfl

theorem sink_reset (f : IntegerFile) : f.reset.sink = f.sink := by rw [reset]

theorem sink_applyLayout (f : IntegerFile) (l : Layout) : (f.applyLayout l).sink = f.sink := by
  rw [applyLayout]

theorem reset_reset (f : IntegerFile) : f.reset.reset = f.reset := by
  have h : ∀ g : IntegerFile, g.reset = ⟨resetOrder.foldl Bank.reset g.bank, g.sink⟩ := by
    intro g
    rw [← bank_reset, ← sink_reset]
  rw [h f.reset, bank_reset, sink_reset, Bank.foldl_reset_twice, ← h]

end IntegerFile

namespace FloatFile
open Floating

theorem renews_block : Bank.Renews block.members := by decide

theorem sink_reset (f : FloatFile) : f.reset.sink = f.sink := by rw [reset]

theorem reset_reset (f : FloatFile) : f.reset.reset = f.reset := by
  rw [reset, reset, RegisterBlock.reset, RegisterBlock.reset, Bank.foldl_reset_twice]

end FloatFile

namespace ControlFile
open Control

theorem renews_block : Bank.Renews block.members := by decide

theorem sink_reset (f : ControlFile) : f.reset.sink = f.sink := by rw [reset]

theorem reset_reset (f : ControlFile) : f.reset.reset = f.reset := by
  rw [reset, reset, RegisterBlock.reset, RegisterBlock.reset, Bank.foldl_reset_twice]

end ControlFile
end ArchState
