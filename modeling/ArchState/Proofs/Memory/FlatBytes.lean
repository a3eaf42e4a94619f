import Mathlib.Algebra.Group.Nat.Defs
import ArchState.Proofs.Memory.Spec
import ArchState.Layout.Builtin

/-! # Memory as a flat map of bytes

The bytes of the words that a raw reading shows make one map over all addresses. Stores and
loads act on it as if there were no segments, tables, blocks or words: a store replaces the
bytes that it covers and no other byte, and every value is the number that the bytes make, the
one at the lowest address being the least significant.
-/
namespace ArchState

namespace Word

theorem byte_eq (w : UInt32) (j : Nat) : byte w j = UInt8.ofNat (w.toNat / 256 ^ j) := by
  rw [byte, Nat.shiftRight_eq_div_pow, Nat.pow_mul]

theorem byte_ofNat {x j : Nat} (h : x < 0x100000000) :
    byte (UInt32.ofNat x) j = UInt8.ofNat (x / 256 ^ j) := by
  rw [byte_eq, UInt32.toNat_ofNat_of_lt' h]

/-- The digits to the base 256 of a remainder modulo `256 ^ length`. -/
theorem digit_mod (x length j : Nat) :
    UInt8.ofNat (x % 256 ^ length / 256 ^ j) =
      if j < length then UInt8.ofNat (x / 256 ^ j) else 0 := by
  by_cases h : j < length
  · have hpow : 256 ^ length = 256 ^ j * 256 ^ (length - j) := by
      rw [← Nat.pow_add]
      congr 1
      omega
    have hdvd : 256 ∣ 256 ^ (length - j) := Nat.pow_dvd_pow 256 (by omega : 1 ≤ length - j)
    rw [if_pos h, hpow, Nat.mod_mul_right_div_self, ← UInt8.toNat_inj, UInt8.toNat_ofNat',
      UInt8.toNat_ofNat']
    exact Nat.mod_mod_of_dvd _ hdvd
  · have hle : 256 ^ length ≤ 256 ^ j := Nat.pow_le_pow_right (by decide) (by omega)
    have hlt : x % 256 ^ length < 256 ^ length := Nat.mod_lt _ (Nat.pow_pos (by decide))
    rw [if_neg h, Nat.div_eq_of_lt (Nat.lt_of_lt_of_le hlt hle)]
    rfl

theorem low_toNat (w : UInt32) (length : Nat) : (low w length).toNat = w.toNat % 256 ^ length := by
  have hlt : w.toNat % 256 ^ length < 0x100000000 := Nat.lt_of_le_of_lt (Nat.mod_le _ _) w.toNat_lt
  have heq : low w length = UInt32.ofNat (w.toNat % 256 ^ length) := by
    apply ext_byte
    intro j hj
    rw [byte_low _ _ hj, byte_ofNat hlt, digit_mod, byte_eq]
  rw [heq, UInt32.toNat_ofNat_of_lt' hlt]

end Word

abbrev ByteMap := UInt32 → Option UInt8

namespace ByteMap

def write (f : ByteMap) (a v : UInt32) (length : Nat) : ByteMap := fun b =>
  if a.toNat ≤ b.toNat ∧ b.toNat < a.toNat + length then some (Word.byte v (b.toNat - a.toNat))
  else f b

def number? (f : ByteMap) (a : UInt32) : Nat → Option Nat
  | 0 => some 0
  | length + 1 => do
    let b ← f a
    let rest ← f.number? (a + 1) length
    return b.toNat + 256 * rest

theorem number?_eq {f : ByteMap} {a : UInt32} {length x : Nat}
    (h : ∀ i < length, f (a + UInt32.ofNat i) = some (UInt8.ofNat (x / 256 ^ i))) :
    f.number? a length = some (x % 256 ^ length) := by
  induction length generalizing a x with
  | zero => rw [number?, Nat.pow_zero, Nat.mod_one]
  | succ length ih =>
    have hfirst : f a = some (UInt8.ofNat x) := by
      have h0 := h 0 (Nat.zero_lt_succ length)
      rw [Nat.pow_zero, Nat.div_one] at h0
      rw [← h0, show UInt32.ofNat 0 = 0 from rfl, UInt32.add_zero]
    have hrest : f.number? (a + 1) length = some (x / 256 % 256 ^ length) := by
      apply ih
      intro i hi
      have hs := h (i + 1) (Nat.succ_lt_succ hi)
      rw [Nat.pow_succ', ← Nat.div_div_eq_div_mul] at hs
      rw [← hs, UInt32.add_assoc, ← show UInt32.ofNat 1 = 1 from rfl, ← UInt32.ofNat_add,
        Nat.add_comm 1]
    rw [number?, hfirst, hrest, Nat.pow_succ', Nat.mod_mul]
    simp

end ByteMap

namespace Memory
variable {m : Memory} {seg : Segment} {a b : UInt32} {length : Nat}

/-- The byte at an address: the one at its place in the word that a raw reading shows. -/
def bytes (m : Memory) : ByteMap := fun b =>
  (m.rawWord (wordBase b)).toOption.map fun w => Word.byte w (b.toNat % 4)

theorem bytes_eq (m : Memory) (b : UInt32) :
    m.bytes b = (m.segments.owner? b).map fun seg => m.byteAt seg b := by
  have haligned : checkAligned .read (wordBase b) 4 = .ok () := by
    rw [checkAligned, wordBase_toNat, if_pos (Nat.mul_mod_left _ _)]
  have howner : m.segments.owner? (wordBase b) = m.segments.owner? b :=
    Segments.owner?_congr (wordBase_wordBase b)
  simp only [bytes, rawWord, rawWord?, haligned, howner]
  cases h : m.segments.owner? b with
  | none => rfl
  | some seg =>
    have hb := Segments.contains_of_owner? h
    have hword := wordAt_congr
      ((Segments.contains_congr (l := m.layout) (wordBase_wordBase b) seg).trans hb) hb
      (wordBase_wordBase b)
    exact congrArg (fun w => some (Word.byte w (b.toNat % 4))) hword

theorem bytes_of_owner (h : m.segments.owner? b = some seg) :
    m.bytes b = some (m.byteAt seg b) := by
  rw [bytes_eq, h]
  rfl

theorem number?_load {access : Access} (h : m.locate access a length = .ok seg) :
    m.bytes.number? a length = some (m.load seg a length).toNat := by
  obtain ⟨hl, hw, -, -, -⟩ := locate_eq_ok_iff.mp h
  obtain ⟨ha, hz⟩ := contains_of_locate h
  have hlow : Word.low (m.load seg a length) length = m.load seg a length := by
    apply Word.ext_byte
    intro j hj
    rw [Word.byte_low _ _ hj, byte_load (by omega) hw ha hz hj]
    split <;> rfl
  rw [← hlow, Word.low_toNat]
  apply ByteMap.number?_eq
  intro i hi
  have hn : (a + UInt32.ofNat i).toNat = a.toNat + i := toNat_add_ofNat (by omega)
  rw [bytes_of_owner (owner?_of_locate h (by omega) (by omega))]
  have hbyte := byte_load (j := i) (by omega) hw ha hz (by omega)
  rw [if_pos hi, Word.byte_eq] at hbyte
  exact congrArg some hbyte.symm

theorem bytes_replace (hd : m.decoder.Faithful) (h : m.locate .write a length = .ok seg)
    (v : UInt32) : (m.replace seg a v length).2.bytes = m.bytes.write a v length := by
  obtain ⟨hl, hw, -, -, -⟩ := locate_eq_ok_iff.mp h
  obtain ⟨ha, hz⟩ := contains_of_locate h
  obtain ⟨image, fits, hm⟩ := replace_frame m seg a v length
  funext b
  rw [bytes_eq, hm, show (m.withImage image fits).segments = m.segments from rfl, ← hm,
    ByteMap.write, bytes_eq]
  by_cases hin : a.toNat ≤ b.toNat ∧ b.toNat < a.toNat + length
  · have hown := owner?_of_locate h hin.1 hin.2
    rw [if_pos hin, hown, Option.map_some, byteAt_replace hd (by omega) hw ha hz v
      (Segments.contains_of_owner? hown), if_pos ⟨rfl, hin⟩]
  · rw [if_neg hin]
    cases hown : m.segments.owner? b with
    | none => rfl
    | some other =>
      rw [Option.map_some, Option.map_some, byteAt_replace hd (by omega) hw ha hz v
        (Segments.contains_of_owner? hown), if_neg fun hc => hin hc.2]

structure StoreRequest where
  address : UInt32
  value : UInt32
  length : Nat
  deriving DecidableEq, Repr

def storeAll (m : Memory) (requests : List StoreRequest) : Memory :=
  requests.foldl (fun m r => (m.set r.address r.value r.length).state) m

/-- Whether a store succeeds, which its address decides whatever memory contains. -/
def accepts (m : Memory) (r : StoreRequest) : Bool := (m.locate .write r.address r.length).isOk

/-- The bytes after a run of stores are those of the accepted ones, written in turn. -/
theorem bytes_storeAll (hd : m.decoder.Faithful) (requests : List StoreRequest) :
    (m.storeAll requests).bytes =
      (requests.filter m.accepts).foldl (fun f r => f.write r.address r.value r.length)
        m.bytes := by
  induction requests generalizing m with
  | nil => rfl
  | cons r requests ih =>
    rw [storeAll, List.foldl_cons, ← storeAll, List.filter_cons]
    cases hl : m.locate .write r.address r.length with
    | error fault =>
      rw [set_of_fault hl, accepts, hl]
      exact ih hd
    | ok seg =>
      obtain ⟨image, fits, hm⟩ := replace_frame m seg r.address r.value r.length
      have hnext : (m.replace seg r.address r.value r.length).2.accepts = m.accepts := by
        rw [hm]
        rfl
      have hdnext : (m.replace seg r.address r.value r.length).2.decoder.Faithful := by
        rw [hm]
        exact hd
      rw [set_of_locate hd hl, accepts, hl, ih hdnext, hnext, bytes_replace hd hl]
      rfl

/-- Accesses refine a flat map of bytes. A store that succeeds replaces the bytes that it
covers, answers the number that they made and can be loaded again; one that fails leaves the
map alone; and a load that succeeds answers the number that its bytes make. -/
theorem accesses_refine_bytes (m : Memory) (hd : m.decoder.Faithful) (a v : UInt32)
    (length : Nat) :
    (∀ old, (m.set a v length).answer = .ok old →
      (m.set a v length).state.bytes = m.bytes.write a v length ∧
      m.bytes.number? a length = some old.toNat ∧
      ∃ w, ((m.set a v length).state.get a length).answer = .ok w ∧
        w.toNat = v.toNat % 256 ^ length) ∧
    (∀ fault, (m.set a v length).answer = .error fault →
      (m.set a v length).state.bytes = m.bytes) ∧
    (∀ w, (m.get a length).answer = .ok w → m.bytes.number? a length = some w.toNat) := by
  refine ⟨?_, ?_, ?_⟩
  · intro old hold
    cases hl : m.locate .write a length with
    | error fault =>
      rw [set_of_fault hl] at hold
      exact nomatch hold
    | ok seg =>
      rw [set_of_locate hd hl] at hold ⊢
      obtain rfl := Except.ok.inj hold
      refine ⟨bytes_replace hd hl v, number?_load hl, ?_⟩
      obtain ⟨image, fits, hm⟩ := replace_frame m seg a v length
      have hread : (m.replace seg a v length).2.locate .read a length = .ok seg := by
        rw [hm, locate_withImage]
        exact (locate_isOk_of_access m .write a length seg).mp hl
      refine ⟨_, congrArg Reading.answer (get_of_locate hread), ?_⟩
      rw [← Word.low_toNat, ← load_replace hd hl v]
  · intro fault hfault
    cases hl : m.locate .write a length with
    | error e => rw [set_of_fault hl, Step.quiet]
    | ok seg =>
      rw [set_of_locate hd hl] at hfault
      exact nomatch hfault
  · intro w hw
    cases hl : m.locate .read a length with
    | error e =>
      rw [get_of_fault hl] at hw
      exact nomatch hw
    | ok seg =>
      rw [get_of_locate hl] at hw
      obtain rfl := Except.ok.inj hw
      exact number?_load hl

theorem straddling_store_refines_bytes :
    let m := ofLayout .compactTextAtZero
    (m.set 0x1003 0xBEEF 2).answer = .ok 0 ∧
      (m.set 0x1003 0xBEEF 2).state.bytes 0x1003 = some 0xEF ∧
      (m.set 0x1003 0xBEEF 2).state.bytes 0x1004 = some 0xBE ∧
      (m.set 0x1003 0xBEEF 2).state.bytes 0x1005 = some 0 := by
  have hlocate : (ofLayout .compactTextAtZero).locate .write 0x1003 2 = .ok .data := by rfl
  have hload : (ofLayout .compactTextAtZero).load .data 0x1003 2 = 0 := by decide
  intro m
  have hold : (m.set 0x1003 0xBEEF 2).answer = .ok 0 := by
    rw [set_of_locate Decoder.faithful_binary hlocate, hload]
  obtain ⟨hbytes, -, -⟩ :=
    (accesses_refine_bytes m Decoder.faithful_binary 0x1003 0xBEEF 2).1 0 hold
  refine ⟨hold, ?_, ?_, ?_⟩
  · rw [hbytes]
    decide
  · rw [hbytes]
    decide
  · rw [hbytes]
    decide

end Memory
end ArchState
