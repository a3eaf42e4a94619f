import ArchState.Register.Control
import ArchState.Register.Float
import ArchState.Register.Integer

/-! # Undoing register writes

What a write to a cell answers is enough to undo it, whatever the kind of the cell: a masked
cell is put back past its mask and a view puts its bits back into its base. The number of a
register finds the register again, under whatever key it was written.
-/
namespace ArchState

theorem lowestBit_lt (mask : UInt64) : lowestBit mask < 64 := by
  rw [lowestBit]
  cases h : (List.range 64).find? fun i => mask.toNat.testBit i with
  | none => decide
  | some i => exact List.mem_range.mp (List.mem_of_find?_eq_some h)

theorem lowestBit_le {mask : UInt64} {i : Nat} (h : mask.toNat.testBit i = true) :
    lowestBit mask ≤ i := by
  rw [lowestBit]
  cases hf : (List.range 64).find? fun i => mask.toNat.testBit i with
  | none => exact Nat.zero_le i
  | some j =>
    obtain ⟨-, -, hleast⟩ := List.find?_range_eq_some.mp hf
    refine Nat.le_of_not_lt fun hlt => ?_
    have := hleast i hlt
    rw [h] at this
    exact nomatch this

theorem shift_lowestBit (mask : UInt64) :
    ((UInt64.ofNat (lowestBit mask)).toBitVec % 64).toNat = lowestBit mask := by
  have hlt := lowestBit_lt mask
  have hn : (UInt64.ofNat (lowestBit mask)).toNat = lowestBit mask :=
    UInt64.toNat_ofNat_of_lt' (by have : UInt64.size = 0x10000000000000000 := rfl; omega)
  rw [BitVec.toNat_umod, UInt64.toNat_toBitVec, hn]
  exact Nat.mod_eq_of_lt hlt

theorem setField_field (mask old value : UInt64) :
    setField mask (setField mask old value) (field mask old) = old := by
  apply UInt64.toBitVec_inj.mp
  apply BitVec.eq_of_getLsbD_eq
  intro i hi
  simp only [setField, field, UInt64.toBitVec_or, UInt64.toBitVec_and, UInt64.toBitVec_not,
    UInt64.toBitVec_shiftLeft, UInt64.toBitVec_shiftRight, BitVec.shiftLeft_eq',
    BitVec.ushiftRight_eq', shift_lowestBit, BitVec.getLsbD_or, BitVec.getLsbD_and,
    BitVec.getLsbD_not, BitVec.getLsbD_shiftLeft, BitVec.getLsbD_ushiftRight, hi, decide_true,
    Bool.true_and]
  by_cases hm : mask.toBitVec.getLsbD i = true
  · have hle : lowestBit mask ≤ i := by
      apply lowestBit_le
      rw [← UInt64.toNat_toBitVec, BitVec.testBit_toNat]
      exact hm
    rw [hm, decide_eq_false (by omega), show lowestBit mask + (i - lowestBit mask) = i by omega, hm]
    simp
  · rw [Bool.not_eq_true] at hm
    rw [hm]
    simp

namespace BankSpec
variable {spec : BankSpec} {i : spec.Position}

theorem stored_plain (h : (spec.cell i).kind = .plain) (guarded : Bool) (old value : UInt64) :
    spec.stored i guarded old value = value := by
  unfold stored
  rw [h]

theorem isReadOnly_plain (h : (spec.cell i).kind = .plain) : spec.isReadOnly i = false := by
  rw [isReadOnly, h]
  rfl

end BankSpec

namespace Bank
variable {spec : BankSpec} {b n : Bank spec} {i : spec.Position}

theorem recordsTo_notify (b : Bank spec) (sink : Sink) (i : spec.Position) (access : Access) :
    Signal.recordsTo sink (b.notify i access) = [] := by
  rw [Signal.recordsTo, notify, List.filterMap_map, List.filterMap_eq_nil_iff]
  intro id _
  rfl

theorem recordsTo_set (b : Bank spec) (sink : Sink) (i : spec.Position) (value : UInt64) :
    Signal.recordsTo sink (b.set i value).signals = [] := by
  unfold set
  split
  · rfl
  · exact recordsTo_notify _ sink i .write

end Bank

theorem RegisterBlock.mem_of_byNumber? {spec : BankSpec} {block : RegisterBlock spec} {n : Int}
    {i : spec.Position} (h : block.byNumber? n = some i) : i ∈ block.members :=
  List.mem_reverse.mp (List.mem_of_find?_eq_some h)

theorem RegisterBlock.mem_of_find? {spec : BankSpec} {block : RegisterBlock spec}
    {key : RegisterKey} {i : spec.Position} (h : block.find? key = some i) :
    i ∈ block.members := by
  cases key with
  | number n => exact mem_of_byNumber? h
  | name s =>
    rw [find?, byName?] at h
    split at h
    · exact nomatch h
    · split at h
      · rename_i j hj
        obtain rfl := Option.some.inj h
        exact List.mem_of_find?_eq_some hj
      · obtain ⟨n, -, hn⟩ := Option.bind_eq_some_iff.mp h
        exact mem_of_byNumber? hn

theorem Integer.mem_of_find? {key : RegisterKey} {i : Integer.spec.Position}
    (h : Integer.find? key = some i) : i ∈ Integer.block.members := by
  unfold Integer.find? at h
  split at h
  · obtain rfl := Option.some.inj h
    decide
  · exact RegisterBlock.mem_of_find? h

theorem Integer.byNumber?_number : ∀ i ∈ Integer.block.members,
    Integer.block.byNumber? (Integer.spec.cell i).number = some i := by decide

theorem Floating.byNumber?_number : ∀ i ∈ Floating.block.members,
    Floating.block.byNumber? (Floating.spec.cell i).number = some i := by decide

theorem Control.byNumber?_number : ∀ i ∈ Control.block.members,
    Control.block.byNumber? (Control.spec.cell i).number = some i := by decide

theorem Integer.kind_plain : ∀ i : Integer.spec.Position,
    (Integer.spec.cell i).kind = .plain := by decide

theorem Floating.kind_plain : ∀ i : Floating.spec.Position,
    (Floating.spec.cell i).kind = .plain := by decide

theorem Control.isReadOnly_cell : ∀ i : Control.spec.Position,
    Control.isReadOnly (Control.spec.cell i).number = false →
      Control.spec.isReadOnly i = false := by decide

namespace IntegerFile
open Integer
variable {f n : IntegerFile} {key : RegisterKey} {i : spec.Position}

theorem update_of_none (h : Integer.find? key = none) (value : UInt64) :
    f.update key value = .quiet none f := by
  rw [update, h]

theorem update_of_zero (h : Integer.find? key = some i) (h0 : (spec.cell i).number = 0)
    (value : UInt64) : f.update key value = .quiet (some 0) f := by
  rw [update, h]
  dsimp only
  rw [write, if_pos h0, if_pos h0]
  rfl

theorem update_of_some (h : Integer.find? key = some i) (h0 : (spec.cell i).number ≠ 0)
    (value : UInt64) :
    f.update key value =
      ⟨some (f.bank.set i value).answer, { f with bank := (f.bank.set i value).state },
        (f.bank.set i value).signals ++
          Sink.signals f.sink (.register (spec.cell i).number (f.bank.set i value).answer)⟩ := by
  rw [update, h]
  dsimp only
  rw [write, if_neg h0, if_neg h0]
  rfl

end IntegerFile

namespace FloatFile
open Floating
variable {f n : FloatFile} {key : RegisterKey} {i : spec.Position}

theorem write_none (f : FloatFile) (value : UInt64) : f.write none value = .quiet none f := rfl

theorem write_some (f : FloatFile) (i : spec.Position) (value : UInt64) :
    f.write (some i) value =
      ⟨some (f.bank.set i value).answer, { f with bank := (f.bank.set i value).state },
        (f.bank.set i value).signals ++
          Sink.signals f.sink
            (.floatRegister (spec.cell i).number (f.bank.set i value).answer)⟩ := rfl

end FloatFile

namespace ControlFile
open Control
variable {f n : ControlFile} {key : RegisterKey} {i : spec.Position}

theorem write_of_readOnly (h : isReadOnly (spec.cell i).number = true) (value : UInt64) :
    f.write i value = .quiet none f := by
  rw [write, if_pos h]

theorem write_of_writable (h : isReadOnly (spec.cell i).number = false) (value : UInt64) :
    f.write i value =
      ⟨some (f.bank.set i value).answer, { f with bank := (f.bank.set i value).state },
        (f.bank.set i value).signals ++
          Sink.signals f.sink
            (.controlRegister (spec.cell i).number (f.bank.set i value).answer)⟩ := by
  rw [write, h]
  rfl

end ControlFile
end ArchState
