/-! # Words and their bytes

A word of memory holds four bytes, the byte at the lowest address being the least
significant one. `Word.ofBytes` and `Word.byte` are inverse to each other.
-/
namespace ArchState

def wordBase (a : UInt32) : UInt32 := UInt32.ofNat (a.toNat / 4 * 4)

theorem wordBase_toNat (a : UInt32) : (wordBase a).toNat = a.toNat / 4 * 4 := by
  have h := a.toNat_lt
  rw [wordBase, UInt32.toNat_ofNat_of_lt']
  have : UInt32.size = 0x100000000 := rfl
  omega

theorem wordBase_wordBase (a : UInt32) : wordBase (wordBase a) = wordBase a := by
  apply UInt32.toNat_inj.mp
  simp only [wordBase_toNat]
  omega

def doubleBase (a : UInt32) : UInt32 := a &&& ~~~7

/-- A mask of the bits from `k` on clears those below. -/
theorem and_mask {n mask width k : Nat} (hn : ∀ i, width ≤ i → n.testBit i = false)
    (hmask : ∀ i < width, mask.testBit i = decide (k ≤ i)) : n &&& mask = n >>> k <<< k := by
  apply Nat.eq_of_testBit_eq
  intro i
  rw [Nat.testBit_and, Nat.testBit_shiftLeft, Nat.testBit_shiftRight]
  by_cases hk : k ≤ i
  · rw [Nat.add_sub_cancel' hk]
    by_cases hi : i < width
    · simp [hmask i hi, hk]
    · simp [hn i (Nat.le_of_not_lt hi)]
  · by_cases hi : i < width
    · simp [hmask i hi, hk]
    · simp [hn i (Nat.le_of_not_lt hi), hk]

theorem testBit_address (a : UInt32) (i : Nat) (h : 32 ≤ i) : a.toNat.testBit i = false :=
  Nat.testBit_lt_two_pow (Nat.lt_of_lt_of_le a.toNat_lt (Nat.pow_le_pow_right (by decide) h))

theorem doubleBase_toNat (a : UInt32) : (doubleBase a).toNat = a.toNat / 8 * 8 := by
  have hmask : ∀ i < 32, (~~~(7 : UInt32)).toNat.testBit i = decide (3 ≤ i) := by decide
  rw [doubleBase, UInt32.toNat_and, and_mask (testBit_address a) hmask, Nat.shiftLeft_eq,
    Nat.shiftRight_eq_div_pow]

theorem wordBase_eq_and (a : UInt32) : wordBase a = a &&& ~~~3 := by
  have hmask : ∀ i < 32, (~~~(3 : UInt32)).toNat.testBit i = decide (2 ≤ i) := by decide
  rw [← UInt32.toNat_inj, wordBase_toNat, UInt32.toNat_and, and_mask (testBit_address a) hmask,
    Nat.shiftLeft_eq, Nat.shiftRight_eq_div_pow]

theorem toNat_add_ofNat {a : UInt32} {k : Nat} (h : a.toNat + k < 0x100000000) :
    (a + UInt32.ofNat k).toNat = a.toNat + k := by
  have hk : (UInt32.ofNat k).toNat = k :=
    UInt32.toNat_ofNat_of_lt' (by change k < 0x100000000; omega)
  rw [UInt32.toNat_add, hk, Nat.mod_eq_of_lt h]

namespace Word

/-- Byte `j` of `w`, counted from the least significant one; zero from the fourth on. -/
def byte (w : UInt32) (j : Nat) : UInt8 := UInt8.ofNat (w.toNat >>> (8 * j))

def ofBytes (f : Nat → UInt8) : UInt32 :=
  UInt32.ofNat ((f 0).toNat + 256 * (f 1).toNat + 65536 * (f 2).toNat + 16777216 * (f 3).toNat)

theorem ofBytes_toNat (f : Nat → UInt8) : (ofBytes f).toNat =
    (f 0).toNat + 256 * (f 1).toNat + 65536 * (f 2).toNat + 16777216 * (f 3).toNat := by
  have h0 := (f 0).toNat_lt
  have h1 := (f 1).toNat_lt
  have h2 := (f 2).toNat_lt
  have h3 := (f 3).toNat_lt
  rw [ofBytes, UInt32.toNat_ofNat_of_lt']
  have : UInt32.size = 0x100000000 := rfl
  omega

theorem byte_toNat (w : UInt32) (j : Nat) : (byte w j).toNat = w.toNat >>> (8 * j) % 256 := by
  simp [byte]

theorem ofBytes_byte (w : UInt32) : ofBytes (byte w) = w := by
  have h := w.toNat_lt
  apply UInt32.toNat_inj.mp
  rw [ofBytes_toNat]
  simp only [byte_toNat]
  omega

theorem byte_eq_zero (w : UInt32) {j : Nat} (h : 4 ≤ j) : byte w j = 0 := by
  have hw := w.toNat_lt
  have hp : 2 ^ 32 ≤ 2 ^ (8 * j) := Nat.pow_le_pow_right (by decide) (by omega)
  apply UInt8.toNat_inj.mp
  rw [byte_toNat, Nat.shiftRight_eq_div_pow, Nat.div_eq_of_lt (by omega)]
  rfl

theorem ext_byte {v w : UInt32} (h : ∀ j < 4, byte v j = byte w j) : v = w := by
  rw [← ofBytes_byte v, ← ofBytes_byte w]
  unfold ofBytes
  rw [h 0 (by decide), h 1 (by decide), h 2 (by decide), h 3 (by decide)]

end Word

namespace DoubleWord

def lowWord (d : UInt64) : UInt32 := d.toUInt32

def highWord (d : UInt64) : UInt32 := UInt32.ofNat (d.toNat / 0x100000000)

def signedLow (d : UInt64) : Int := d.toUInt32.toInt32.toInt

def ofWords (low high : UInt32) : UInt64 := UInt64.ofNat (high.toNat * 0x100000000 + low.toNat)

theorem ofWords_toNat (low high : UInt32) :
    (ofWords low high).toNat = high.toNat * 0x100000000 + low.toNat := by
  have hl := low.toNat_lt
  have hh := high.toNat_lt
  rw [ofWords, UInt64.toNat_ofNat_of_lt']
  have : UInt64.size = 0x10000000000000000 := rfl
  omega

@[simp] theorem lowWord_ofWords (low high : UInt32) : lowWord (ofWords low high) = low := by
  have hl := low.toNat_lt
  apply UInt32.toNat_inj.mp
  simp only [lowWord, UInt64.toNat_toUInt32, ofWords_toNat]
  omega

@[simp] theorem highWord_ofWords (low high : UInt32) : highWord (ofWords low high) = high := by
  have hl := low.toNat_lt
  have hh := high.toNat_lt
  apply UInt32.toNat_inj.mp
  rw [highWord, UInt32.toNat_ofNat', ofWords_toNat]
  omega

theorem ofWords_words (d : UInt64) : ofWords (lowWord d) (highWord d) = d := by
  have hd := d.toNat_lt
  apply UInt64.toNat_inj.mp
  rw [ofWords_toNat, highWord, UInt32.toNat_ofNat', lowWord, UInt64.toNat_toUInt32]
  omega

end DoubleWord
end ArchState
