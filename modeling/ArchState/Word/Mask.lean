import ArchState.Word

/-! # Parts of words

Some neighbouring bytes of a word are read and replaced by moves and masks. `byte_extract`
and `byte_insert` tell what that does to each byte.
-/
namespace ArchState.Word

def mask (count : Nat) : UInt32 :=
  if 4 ≤ count then 0xFFFFFFFF else (1 <<< UInt32.ofNat (8 * count)) - 1

/-- A word moved up by `k` bytes; the bytes moved out are lost. -/
def up (w : UInt32) (k : Nat) : UInt32 := w <<< UInt32.ofNat (8 * k)

def down (w : UInt32) (k : Nat) : UInt32 := w >>> UInt32.ofNat (8 * k)

/-- The `count` bytes of `w` from byte `offset` on, moved down to byte zero. -/
def extract (w : UInt32) (offset count : Nat) : UInt32 := down (w &&& up (mask count) offset) offset

/-- The word with `count` of its bytes from byte `offset` on replaced by the lowest ones of `v`. -/
def insert (w : UInt32) (offset count : Nat) (v : UInt32) : UInt32 :=
  (w &&& ~~~up (mask count) offset) ||| (up v offset &&& up (mask count) offset)

theorem bit_byte (w : UInt32) (j : Nat) {i : Nat} (h : i < 8) :
    (byte w j).toBitVec.getLsbD i = w.toBitVec.getLsbD (8 * j + i) := by
  rw [← BitVec.testBit_toNat, UInt8.toNat_toBitVec, byte_toNat, show 256 = 2 ^ 8 from rfl,
    Nat.testBit_mod_two_pow, Nat.testBit_shiftRight, ← UInt32.toNat_toBitVec,
    BitVec.testBit_toNat]
  simp only [h, decide_true, Bool.true_and]

theorem ext_bit {b c : UInt8} (h : ∀ i < 8, b.toBitVec.getLsbD i = c.toBitVec.getLsbD i) :
    b = c := UInt8.toBitVec_inj.mp (BitVec.eq_of_getLsbD_eq h)

theorem shift_toNat {k : Nat} (h : k < 4) :
    ((UInt32.ofNat (8 * k)).toBitVec % 32).toNat = 8 * k := by
  have hk : (UInt32.ofNat (8 * k)).toNat = 8 * k :=
    UInt32.toNat_ofNat_of_lt' (by have : UInt32.size = 0x100000000 := rfl; omega)
  rw [BitVec.toNat_umod, UInt32.toNat_toBitVec, hk]
  exact Nat.mod_eq_of_lt (by change 8 * k < 32; omega)

theorem bit_up (w : UInt32) {k : Nat} (h : k < 4) (i : Nat) :
    (up w k).toBitVec.getLsbD i =
      (decide (i < 32) && !decide (i < 8 * k) && w.toBitVec.getLsbD (i - 8 * k)) := by
  rw [up, UInt32.toBitVec_shiftLeft, BitVec.shiftLeft_eq', shift_toNat h,
    BitVec.getLsbD_shiftLeft]

theorem bit_down (w : UInt32) {k : Nat} (h : k < 4) (i : Nat) :
    (down w k).toBitVec.getLsbD i = w.toBitVec.getLsbD (8 * k + i) := by
  rw [down, UInt32.toBitVec_shiftRight, BitVec.ushiftRight_eq', shift_toNat h,
    BitVec.getLsbD_ushiftRight]

theorem bit_mask (count : Nat) {i : Nat} (h : i < 32) :
    (mask count).toBitVec.getLsbD i = decide (i < 8 * count) := by
  have low : ∀ c < 4, ∀ i < 32, (mask c).toBitVec.getLsbD i = decide (i < 8 * c) := by decide
  by_cases hc : 4 ≤ count
  · rw [decide_eq_true (by omega), mask, if_pos hc]
    revert i
    decide
  · exact low count (by omega) i h

theorem bit_up_mask {offset count j i : Nat} (ho : offset < 4) (hj : j < 4) (hi : i < 8) :
    (up (mask count) offset).toBitVec.getLsbD (8 * j + i) =
      decide (offset ≤ j ∧ j < offset + count) := by
  rw [bit_up _ ho, bit_mask _ (by omega), decide_eq_true (by omega : 8 * j + i < 32),
    Bool.true_and]
  by_cases h : offset ≤ j
  · have hk : 8 * j + i - 8 * offset < 8 * count ↔ j < offset + count := by omega
    simp only [h, hk, true_and, decide_eq_false (by omega : ¬ 8 * j + i < 8 * offset),
      Bool.not_false, Bool.true_and]
  · simp only [h, false_and, decide_false, decide_eq_true (by omega : 8 * j + i < 8 * offset),
      Bool.not_true, Bool.false_and]

theorem byte_up (w : UInt32) {k : Nat} (hk : k < 4) {j : Nat} (hj : j < 4) :
    byte (up w k) j = if k ≤ j then byte w (j - k) else 0 := by
  apply ext_bit
  intro i hi
  rw [bit_byte _ _ hi, bit_up _ hk, decide_eq_true (by omega : 8 * j + i < 32)]
  by_cases h : k ≤ j
  · rw [if_pos h, bit_byte _ _ hi, decide_eq_false (by omega),
      show 8 * j + i - 8 * k = 8 * (j - k) + i by omega]
    rfl
  · rw [if_neg h, decide_eq_true (by omega)]
    simp

theorem byte_down (w : UInt32) {k : Nat} (hk : k < 4) (j : Nat) :
    byte (down w k) j = byte w (j + k) := by
  apply ext_bit
  intro i hi
  rw [bit_byte _ _ hi, bit_byte _ _ hi, bit_down _ hk, Nat.mul_add, ← Nat.add_assoc,
    Nat.add_comm (8 * k)]

theorem byte_or (v w : UInt32) (j : Nat) : byte (v ||| w) j = byte v j ||| byte w j := by
  apply ext_bit
  intro i hi
  simp only [bit_byte _ _ hi, UInt32.toBitVec_or, UInt8.toBitVec_or, BitVec.getLsbD_or]

theorem byte_extract (w : UInt32) {offset count : Nat} (ho : offset < 4) {j : Nat} (hj : j < 4) :
    byte (extract w offset count) j = if j < count then byte w (offset + j) else 0 := by
  rw [extract, byte_down _ ho]
  by_cases hb : j + offset < 4
  · apply ext_bit
    intro i hi
    rw [bit_byte _ _ hi, UInt32.toBitVec_and, BitVec.getLsbD_and, bit_up_mask ho hb hi]
    by_cases h : j < count
    · rw [if_pos h, bit_byte _ _ hi, decide_eq_true (by omega), Bool.and_true, Nat.add_comm j]
    · rw [if_neg h, decide_eq_false (by omega)]
      simp
  · rw [byte_eq_zero _ (by omega), byte_eq_zero _ (by omega), ite_self]

theorem byte_insert (w v : UInt32) {offset : Nat} (ho : offset < 4) (count : Nat) {j : Nat}
    (hj : j < 4) : byte (insert w offset count v) j =
      if offset ≤ j ∧ j < offset + count then byte v (j - offset) else byte w j := by
  apply ext_bit
  intro i hi
  rw [bit_byte _ _ hi]
  simp only [insert, UInt32.toBitVec_or, UInt32.toBitVec_and, UInt32.toBitVec_not,
    BitVec.getLsbD_or, BitVec.getLsbD_and, BitVec.getLsbD_not, bit_up_mask ho hj hi]
  by_cases h : offset ≤ j ∧ j < offset + count
  · rw [if_pos h, decide_eq_true h, ← bit_byte _ _ hi, ← bit_byte _ _ hi, byte_up _ ho hj,
      if_pos h.1]
    simp
  · rw [if_neg h, decide_eq_false h, bit_byte _ _ hi, decide_eq_true (by omega)]
    simp

def low (w : UInt32) (length : Nat) : UInt32 := w &&& mask length

theorem byte_low (w : UInt32) (length : Nat) {j : Nat} (h : j < 4) :
    byte (low w length) j = if j < length then byte w j else 0 := by
  apply ext_bit
  intro i hi
  rw [bit_byte _ _ hi, low, UInt32.toBitVec_and, BitVec.getLsbD_and, bit_mask _ (by omega)]
  by_cases hl : j < length
  · rw [if_pos hl, bit_byte _ _ hi, decide_eq_true (by omega), Bool.and_true]
  · rw [if_neg hl, decide_eq_false (by omega)]
    simp

end ArchState.Word
