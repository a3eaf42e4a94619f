import ArchState.Proofs.Register.Undo

/-! # Fields of words

A field that is set shows the bits that fit into it, and the bits outside it are kept. The fields
of `fcsr` are disjoint, and the upper half of a counter is set by putting two words together.
-/
namespace ArchState

theorem eq_of_getLsbD {a b : UInt64}
    (h : ∀ i < 64, a.toBitVec.getLsbD i = b.toBitVec.getLsbD i) : a = b :=
  UInt64.toBitVec_inj.mp (BitVec.eq_of_getLsbD_eq h)

theorem or_and_distrib (a b c : UInt64) : (a ||| b) &&& c = (a &&& c) ||| (b &&& c) := by
  apply UInt64.toBitVec_inj.mp
  simp only [UInt64.toBitVec_and, UInt64.toBitVec_or, BitVec.and_or_distrib_right]

/-- A field can be set without a change of the bits outside it. -/
theorem setField_and_of_disjoint {mask other : UInt64} (h : mask &&& other = 0)
    (old value : UInt64) : setField mask old value &&& other = old &&& other := by
  have hkept : ~~~mask &&& other = other := by
    have hall : (mask ||| ~~~mask) &&& other = other := by simp
    rwa [or_and_distrib, h, UInt64.zero_or] at hall
  rw [setField, or_and_distrib, UInt64.and_assoc, h, UInt64.and_zero, UInt64.zero_or,
    UInt64.and_assoc, hkept]

theorem field_setField_of_disjoint {mask other : UInt64} (h : mask &&& other = 0)
    (old value : UInt64) : field other (setField mask old value) = field other old := by
  rw [field, field, setField_and_of_disjoint h]

/-- A field that was set shows the bits that fit into it. -/
theorem field_setField (mask old value : UInt64) :
    field mask (setField mask old value) = value &&& field mask mask := by
  apply UInt64.toBitVec_inj.mp
  apply BitVec.eq_of_getLsbD_eq
  intro i hi
  simp only [setField, field, UInt64.toBitVec_or, UInt64.toBitVec_and, UInt64.toBitVec_not,
    UInt64.toBitVec_shiftLeft, UInt64.toBitVec_shiftRight, BitVec.shiftLeft_eq',
    BitVec.ushiftRight_eq', shift_lowestBit, BitVec.getLsbD_or, BitVec.getLsbD_and,
    BitVec.getLsbD_not, BitVec.getLsbD_shiftLeft, BitVec.getLsbD_ushiftRight]
  by_cases hm : mask.toBitVec.getLsbD (lowestBit mask + i) = true
  · have hlt : lowestBit mask + i < 64 := BitVec.lt_of_getLsbD hm
    have hge : ¬ lowestBit mask + i < lowestBit mask := by omega
    simp only [hm, hlt, hge, Nat.add_sub_cancel_left, decide_true, decide_false, Bool.not_true,
      Bool.not_false, Bool.true_and, Bool.and_true, Bool.and_false, Bool.or_false]
  · rw [Bool.not_eq_true] at hm
    simp only [hm, Bool.and_false]

namespace Control

theorem field_flags (value : UInt64) : field flagsMask value = value &&& 0x1F := by
  have hlow : lowestBit flagsMask = 0 := by decide
  rw [field, hlow]
  exact UInt64.shiftRight_zero

theorem field_rounding (value : UInt64) : field roundingMask value = (value &&& 0xE0) >>> 5 := by
  have hlow : lowestBit roundingMask = 5 := by decide
  rw [field, hlow]
  rfl

theorem field_upper (value : UInt64) : field upperMask value = value >>> 32 := by
  have hlow : lowestBit upperMask = 32 := by decide
  have hmask : ∀ i < 64, upperMask.toBitVec.getLsbD i = decide (32 ≤ i) := by decide
  have hshift : ((32 : UInt64).toBitVec % 64).toNat = 32 := rfl
  apply UInt64.toBitVec_inj.mp
  apply BitVec.eq_of_getLsbD_eq
  intro i hi
  rw [field, hlow, show UInt64.ofNat 32 = 32 from rfl]
  simp only [UInt64.toBitVec_and, UInt64.toBitVec_shiftRight, BitVec.ushiftRight_eq',
    BitVec.getLsbD_and, BitVec.getLsbD_ushiftRight, hshift]
  by_cases h : 32 + i < 64
  · rw [hmask _ h, decide_eq_true (by omega), Bool.and_true]
  · rw [BitVec.getLsbD_of_ge _ _ (by omega), Bool.false_and]

theorem highWord_eq_field (d : UInt64) : DoubleWord.highWord d = (field upperMask d).toUInt32 := by
  have hd := d.toNat_lt
  apply UInt32.toNat_inj.mp
  rw [field_upper, DoubleWord.highWord, UInt32.toNat_ofNat', UInt64.toNat_toUInt32,
    UInt64.toNat_shiftRight, show (32 : UInt64).toNat % 64 = 32 from rfl,
    Nat.shiftRight_eq_div_pow]

theorem setField_upper (old value : UInt64) : setField upperMask old value =
    DoubleWord.ofWords (DoubleWord.lowWord old) (DoubleWord.lowWord value) := by
  have hlow : DoubleWord.lowWord (setField upperMask old value) = DoubleWord.lowWord old := by
    rw [DoubleWord.lowWord, setField, UInt64.toUInt32_or, UInt64.toUInt32_and,
      UInt64.toUInt32_and, show upperMask.toUInt32 = 0 by decide,
      show (~~~upperMask).toUInt32 = -1 by decide, UInt32.and_zero, UInt32.zero_or,
      UInt32.and_neg_one, DoubleWord.lowWord]
  have hhigh : DoubleWord.highWord (setField upperMask old value) = DoubleWord.lowWord value := by
    rw [highWord_eq_field, field_setField, UInt64.toUInt32_and,
      show (field upperMask upperMask).toUInt32 = -1 by decide, UInt32.and_neg_one,
      DoubleWord.lowWord]
  rw [← DoubleWord.ofWords_words (setField upperMask old value), hlow, hhigh]

end Control
end ArchState
