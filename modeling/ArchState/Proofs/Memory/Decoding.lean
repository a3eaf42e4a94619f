import ArchState.Proofs.Memory.Effects
import ArchState.Proofs.Memory.Overlay

/-! # Stores that rewrite statements

A store into text puts the bytes that it writes into the encoding of the statement before, and asks
the decoder for the new statement, once and whatever effects this has.
-/
namespace ArchState

/-- The stores of at most a word: of some bytes at any address, or of an aligned unit. -/
inductive WordStore where
  | bytes (length : Nat)
  | byte
  | half
  | word
  | rawWord
  deriving DecidableEq, Repr

namespace WordStore

def length : WordStore → Nat
  | bytes length => length
  | byte => 1
  | half => 2
  | word | rawWord => 4

/-- What a store of `old` bytes at `a` sends to the sink. -/
def records (sink : Option Sink) (a old : UInt32) : WordStore → List Signal
  | bytes _ => []
  | byte => Sink.signals sink (.byte a old)
  | half => Sink.signals sink (.half a old)
  | word => Sink.signals sink (.word a old)
  | rawWord => Sink.signals sink (.rawWord a old)

/-- The addresses at which a store stays within a word and is aligned as it has to be. -/
def Fits (a : UInt32) : WordStore → Prop
  | bytes length => (length = 1 ∨ length = 2 ∨ length = 4) ∧ a.toNat % 4 + length ≤ 4
  | byte => True
  | half => a.toNat % 2 = 0
  | word | rawWord => a.toNat % 4 = 0

variable {kind : WordStore} {a : UInt32}

theorem Fits.length (h : kind.Fits a) :
    (kind.length = 1 ∨ kind.length = 2 ∨ kind.length = 4) ∧ a.toNat % 4 + kind.length ≤ 4 := by
  cases kind with
  | bytes length => exact h
  | byte =>
    have hword : a.toNat % 4 + 1 ≤ 4 := by omega
    exact ⟨.inl rfl, hword⟩
  | half =>
    have haligned : a.toNat % 2 = 0 := h
    have hword : a.toNat % 4 + 2 ≤ 4 := by omega
    exact ⟨.inr (.inl rfl), hword⟩
  | word | rawWord =>
    have haligned : a.toNat % 4 = 0 := h
    have hword : a.toNat % 4 + 4 ≤ 4 := by omega
    exact ⟨.inr (.inr rfl), hword⟩

theorem fits_of_length_one (h : kind.length = 1) : kind.Fits a := by
  cases kind with
  | bytes length =>
    obtain rfl : length = 1 := h
    exact ⟨.inl rfl, by omega⟩
  | byte => trivial
  | half | word | rawWord => cases h

end WordStore

namespace Memory

def storeBy (m : Memory) (kind : WordStore) (a v : UInt32) :
    Step Memory (Except AddressFault UInt32) :=
  match kind with
  | .bytes length => m.set a v length
  | .byte => m.setByte a v
  | .half => m.setHalf a v
  | .word => m.setWord a v
  | .rawWord => m.setRawWord a v

section Effects
variable {M : Type → Type} [Monad M]

def storeByVia (m : Memory) (decode : DecoderIn M) (kind : WordStore) (a v : UInt32) :
    M (Step Memory (Except AddressFault UInt32)) :=
  match kind with
  | .bytes length => m.setVia decode a v length
  | .byte => m.setAlignedVia decode a v 1 .byte
  | .half => m.setAlignedVia decode a v 2 .half
  | .word => m.setAlignedVia decode a v 4 .word
  | .rawWord => m.setAlignedVia decode a v 4 .rawWord

/-- With a decoder that has no effects a store is the store of the memory. -/
theorem storeByVia_pure [LawfulMonad M] (m : Memory) (kind : WordStore) (a v : UInt32) :
    m.storeByVia (M := M) (fun w a => pure (m.decoder w a)) kind a v =
      pure (m.storeBy kind a v) := by
  have h : m.Harmless (M := M) fun w a => pure (m.decoder w a) := .inr rfl
  cases kind with
  | bytes length => exact setVia_eq_pure h a v length
  | byte => exact setAlignedVia_eq_pure h a v 1 .byte
  | half => exact setAlignedVia_eq_pure h a v 2 .half
  | word => exact setAlignedVia_eq_pure h a v 4 .word
  | rawWord => exact setAlignedVia_eq_pure h a v 4 .rawWord

end Effects

section Faults
variable {M : Type → Type} [Monad M] [LawfulMonad M] {m : Memory} {a v : UInt32} {length : Nat}
  {fault : AddressFault}

theorem locate_of_set_error (h : (m.set a v length).answer = .error fault) :
    m.locate .write a length = .error fault := by
  cases hl : m.locate .write a length with
  | error other =>
    rw [set_of_fault hl] at h
    exact congrArg Except.error (Except.error.inj h)
  | ok seg =>
    rw [set_eq_replace hl] at h
    cases h

theorem setVia_of_error (decode : DecoderIn M) (h : (m.set a v length).answer = .error fault) :
    m.setVia decode a v length = pure (.quiet (.error fault) m) := by
  rw [setVia, storeVia, storeTarget_eq_locate, locate_of_set_error h, Step.guardedM, map_pure]
  rfl

theorem setAlignedVia_of_error (decode : DecoderIn M) {record : UInt32 → UInt32 → UndoRecord}
    (h : (m.setAligned a v length record).answer = .error fault) :
    m.setAlignedVia decode a v length record = pure (.quiet (.error fault) m) := by
  rw [setAlignedVia]
  rw [setAligned] at h
  cases hcheck : checkAligned .write a length with
  | error other =>
    rw [hcheck] at h
    obtain rfl := Except.error.inj h
    rfl
  | ok _ =>
    rw [hcheck, Step.guarded, Step.thenTry, Step.andThen] at h
    rw [Step.guardedM]
    cases hset : (m.set a v length).answer with
    | ok old =>
      rw [hset] at h
      cases h
    | error other =>
      rw [hset] at h
      obtain rfl := Except.error.inj h
      rw [setVia_of_error decode hset, map_pure]
      rfl

/-- A store that fails does not ask the decoder and leaves the memory as it is. -/
theorem storeByVia_of_error (decode : DecoderIn M) {kind : WordStore}
    (h : (m.storeBy kind a v).answer = .error fault) :
    m.storeByVia decode kind a v = pure (.quiet (.error fault) m) := by
  cases kind with
  | bytes length => exact setVia_of_error decode h
  | byte => exact setAlignedVia_of_error decode h
  | half => exact setAlignedVia_of_error decode h
  | word => exact setAlignedVia_of_error decode h
  | rawWord => exact setAlignedVia_of_error decode h

end Faults

/-- The encoding of the statement in whose place `a` lies, or zero if there is none. -/
def encoding (m : Memory) (a : UInt32) : UInt32 :=
  ((m.statementAt? (wordBase a)).map Statement.binary).getD 0

/-- The encoding with `length` of its bytes from `a` on replaced by the lowest bytes of `v`. -/
def merged (m : Memory) (a v : UInt32) (length : Nat) : UInt32 :=
  Word.insert (m.encoding a) (a.toNat % 4) length v

/-- The `length` bytes of the encoding from `a` on. -/
def replaced (m : Memory) (a : UInt32) (length : Nat) : UInt32 :=
  Word.extract (m.encoding a) (a.toNat % 4) length

/-- Whether `a` lies in text that programs may change. -/
structure Rewritable (m : Memory) (a : UInt32) : Prop where
  allowed : m.selfModifying = true
  owner : m.segments.owner? (wordBase a) = some .text

section Text
variable {m : Memory} {a b v : UInt32} {length : Nat}

namespace Rewritable

theorem owner_self (h : m.Rewritable a) : m.segments.owner? a = some .text :=
  (Segments.owner?_congr (wordBase_wordBase a)).symm.trans h.owner

theorem contains (h : m.Rewritable a) : m.inSegment .text (wordBase a) = true :=
  Segments.contains_of_owner? h.owner

theorem congr (h : m.Rewritable a) (hword : wordBase a = wordBase b) : m.Rewritable b :=
  ⟨h.allowed, hword ▸ h.owner⟩

theorem wordAt (h : m.Rewritable a) : m.wordAt .text a = m.encoding a :=
  wordAt_congr (Segments.contains_of_owner? h.owner_self) h.contains (wordBase_wordBase a).symm

theorem locate_iff (h : m.Rewritable a) : m.locate .write a length = .ok .text ↔
    (length = 1 ∨ length = 2 ∨ length = 4) ∧ a.toNat % 4 + length ≤ 4 := by
  rw [locate_eq_ok_iff]
  constructor
  · rintro ⟨hlength, -, -, -, htext⟩
    exact ⟨hlength, (htext rfl).2⟩
  · rintro ⟨hlength, hword⟩
    have ha := a.toNat_lt
    refine ⟨hlength, by omega, h.owner_self, ?_, fun _ => ⟨h.allowed, hword⟩⟩
    rw [owner?_last (by omega) hword, h.owner_self]

theorem eq_text_of_locate {seg : Segment} (h : m.Rewritable a)
    (hl : m.locate .write a length = .ok seg) : seg = .text := by
  obtain ⟨-, -, howner, -⟩ := locate_eq_ok_iff.mp hl
  exact Option.some.inj (howner.symm.trans h.owner_self)

end Rewritable

section Effects
variable {M : Type → Type} [Monad M] [LawfulMonad M]

theorem storeVia_text (h : m.Rewritable a)
    (hlength : (length = 1 ∨ length = 2 ∨ length = 4) ∧ a.toNat % 4 + length ≤ 4)
    (decode : DecoderIn M) (v : UInt32) : m.storeVia decode a v length =
      (fun st => .quiet (.ok (m.replaced a length)) (m.putStatement (wordBase a) st)) <$>
        decode (m.merged a v length) (wordBase a) := by
  have hslot : m.segments.slot .text a < m.image.length .text * blockWords :=
    slot_lt_length (Segments.contains_of_owner? h.owner_self)
  rw [storeVia, storeTarget_eq_locate, h.locate_iff.mpr hlength, Step.guardedM]
  rw [parts_of_one_word hlength.2, storePartsVia, if_pos hslot, writePartVia, putWordVia, loadPart,
    h.wordAt, Word.up_zero, Word.down_zero, UInt32.zero_or, bind_map_left]
  exact bind_pure_comp _ _

theorem setVia_text (h : m.Rewritable a)
    (hlength : (length = 1 ∨ length = 2 ∨ length = 4) ∧ a.toNat % 4 + length ≤ 4)
    (decode : DecoderIn M) (v : UInt32) : m.setVia decode a v length =
      (fun st => ⟨.ok (m.replaced a length), m.putStatement (wordBase a) st,
        m.notify .write a length (Word.low v length)⟩) <$>
          decode (m.merged a v length) (wordBase a) := by
  rw [setVia, storeVia_text h hlength, Functor.map_map]
  rfl

theorem setAlignedVia_text (h : m.Rewritable a) (haligned : a.toNat % length = 0)
    (hlength : (length = 1 ∨ length = 2 ∨ length = 4) ∧ a.toNat % 4 + length ≤ 4)
    (decode : DecoderIn M) (v : UInt32) (record : UInt32 → UInt32 → UndoRecord) :
    m.setAlignedVia decode a v length record =
      (fun st => ⟨.ok (m.replaced a length), m.putStatement (wordBase a) st,
        m.notify .write a length (Word.low v length) ++
          Sink.signals m.sink (record a (m.replaced a length))⟩) <$>
            decode (m.merged a v length) (wordBase a) := by
  rw [setAlignedVia, checkAligned, if_pos haligned, Step.guardedM, setVia_text h hlength,
    Functor.map_map]
  rfl

/-- A store into text asks the decoder once, for the merged word at the base of its word. -/
theorem storeByVia_text (h : m.Rewritable a) {kind : WordStore} (hfits : kind.Fits a)
    (decode : DecoderIn M) (v : UInt32) : m.storeByVia decode kind a v =
      (fun st => ⟨.ok (m.replaced a kind.length), m.putStatement (wordBase a) st,
        m.notify .write a kind.length (Word.low v kind.length) ++
          kind.records m.sink a (m.replaced a kind.length)⟩) <$>
            decode (m.merged a v kind.length) (wordBase a) := by
  have hlength := hfits.length
  cases kind with
  | bytes length =>
    have hbytes : (length = 1 ∨ length = 2 ∨ length = 4) ∧ a.toNat % 4 + length ≤ 4 := hfits
    rw [storeByVia, setVia_text h hbytes]
    simp only [WordStore.records, WordStore.length, List.append_nil]
  | byte => exact setAlignedVia_text h (Nat.mod_one _) hlength decode v .byte
  | half => exact setAlignedVia_text h hfits hlength decode v .half
  | word => exact setAlignedVia_text h hfits hlength decode v .word
  | rawWord => exact setAlignedVia_text h hfits hlength decode v .rawWord

end Effects

theorem storeBy_text (h : m.Rewritable a) {kind : WordStore} (hfits : kind.Fits a) (v : UInt32) :
    m.storeBy kind a v =
      ⟨.ok (m.replaced a kind.length),
        m.putStatement (wordBase a) (m.decoder (m.merged a v kind.length) (wordBase a)),
        m.notify .write a kind.length (Word.low v kind.length) ++
          kind.records m.sink a (m.replaced a kind.length)⟩ := by
  have hpure := m.storeByVia_pure (M := Id) kind a v
  rw [storeByVia_text h hfits] at hpure
  exact hpure.symm

theorem aligned_of_ok {record : UInt32 → UInt32 → UndoRecord} {old : UInt32}
    (h : (m.setAligned a v length record).answer = .ok old) : a.toNat % length = 0 := by
  by_cases haligned : a.toNat % length = 0
  · exact haligned
  · rw [setAligned, checkAligned, if_neg haligned] at h
    cases h

/-- The stores into text that succeed are the ones that stay within a word and are aligned. -/
theorem fits_of_ok (h : m.Rewritable a) {kind : WordStore} {old : UInt32}
    (hok : (m.storeBy kind a v).answer = .ok old) : kind.Fits a := by
  cases kind with
  | bytes length =>
    cases hl : m.locate .write a length with
    | error fault =>
      have hanswer : (m.set a v length).answer = .ok old := hok
      rw [set_of_fault hl] at hanswer
      cases hanswer
    | ok seg =>
      obtain rfl := h.eq_text_of_locate hl
      exact h.locate_iff.mp hl
  | byte => trivial
  | half => exact aligned_of_ok hok
  | word => exact aligned_of_ok hok
  | rawWord => exact aligned_of_ok hok

/-- The statement at `a` is `st`, and everything else is in `n` as it is in `m`. -/
structure OnlyStatement (m n : Memory) (a : UInt32) (st : Statement) : Prop where
  here : n.fetchStatement a = .ok (some st)
  text : ∀ i, i ≠ m.segments.slot .text a → n.image.text.slot i = m.image.text.slot i
  words : ∀ seg, seg ≠ .text → ∀ b, n.wordAt? seg b = m.wordAt? seg b
  frame : ∃ image fits, n = m.withImage image fits

theorem onlyStatement_putStatement (h : m.Rewritable a) (st : Statement) :
    OnlyStatement m (m.putStatement (wordBase a) st) (wordBase a) st where
  here := by
    have haligned : (wordBase a).toNat % 4 = 0 := by
      rw [wordBase_toNat]
      omega
    have hin : (m.putStatement (wordBase a) st).inSegment .text (wordBase a) = true := h.contains
    rw [fetchStatement_of_inSegment haligned hin, statementAt?_putStatement h.contains]
  text := by
    intro i hi
    have hlt : m.segments.slot .text (wordBase a) < m.image.text.capacity :=
      slot_lt_length h.contains
    exact (BlockTable.slot_put _ hlt (some st) i).trans (if_neg hi.symm)
  words := by
    intro seg hseg b
    cases seg with
    | text => exact absurd rfl hseg
    | data | stack | mmio => rfl
  frame := ⟨_, (m.putStatement (wordBase a) st).fits, rfl⟩

theorem rewritable_putStatement (h : m.Rewritable a) (c : UInt32) (st : Statement) :
    (m.putStatement c st).Rewritable a := ⟨h.allowed, h.owner⟩

theorem rewritable_storeBy (h : m.Rewritable a) {kind : WordStore} (hfits : kind.Fits a)
    (hb : m.Rewritable b) : (m.storeBy kind a v).state.Rewritable b := by
  rw [storeBy_text h hfits]
  exact rewritable_putStatement hb _ _

theorem encoding_congr (hword : wordBase a = wordBase b) : m.encoding a = m.encoding b := by
  rw [encoding, encoding, hword]

theorem encoding_putStatement (h : m.Rewritable a) (st : Statement) :
    (m.putStatement (wordBase a) st).encoding a = st.binary := by
  rw [encoding, statementAt?_putStatement h.contains]
  rfl

theorem byte_merged (m : Memory) (a v : UInt32) (length : Nat) {j : Nat} (hj : j < 4) :
    Word.byte (m.merged a v length) j =
      if a.toNat % 4 ≤ j ∧ j < a.toNat % 4 + length then Word.byte v (j - a.toNat % 4)
      else Word.byte (m.encoding a) j :=
  Word.byte_insert _ _ (Nat.mod_lt _ (by decide)) _ hj

/-- With a decoder that keeps encodings, a store into text leaves the merged word there. -/
theorem encoding_storeBy (hd : m.decoder.Faithful) (h : m.Rewritable a) {kind : WordStore}
    (hfits : kind.Fits a) (v : UInt32) :
    (m.storeBy kind a v).state.encoding a = m.merged a v kind.length := by
  rw [storeBy_text h hfits]
  exact (encoding_putStatement h _).trans (hd _ _)

/-- The bytes of a statement after two stores into its word. The later store wins. -/
theorem byte_two_stores (hd : m.decoder.Faithful) (ha : m.Rewritable a)
    (hword : wordBase a = wordBase b) {kind other : WordStore} (hfits : kind.Fits a)
    (hother : other.Fits b) (v u : UInt32) {j : Nat} (hj : j < 4) :
    Word.byte (((m.storeBy kind a v).state.storeBy other b u).state.encoding a) j =
      if b.toNat % 4 ≤ j ∧ j < b.toNat % 4 + other.length then Word.byte u (j - b.toNat % 4)
      else if a.toNat % 4 ≤ j ∧ j < a.toNat % 4 + kind.length then Word.byte v (j - a.toNat % 4)
      else Word.byte (m.encoding a) j := by
  have hfirst := encoding_storeBy hd ha hfits v
  have hb := rewritable_storeBy (v := v) ha hfits (ha.congr hword)
  have hdb : (m.storeBy kind a v).state.decoder.Faithful := by
    rw [storeBy_text ha hfits]
    exact hd
  rw [encoding_congr hword, encoding_storeBy hdb hb hother, byte_merged _ _ _ _ hj,
    encoding_congr hword.symm, hfirst, byte_merged _ _ _ _ hj]

/-- Stores of different bytes of a statement commute in its encoding. -/
theorem stores_commute (hd : m.decoder.Faithful) (ha : m.Rewritable a)
    (hword : wordBase a = wordBase b) {kind other : WordStore} (hfits : kind.Fits a)
    (hother : other.Fits b)
    (hapart : a.toNat + kind.length ≤ b.toNat ∨ b.toNat + other.length ≤ a.toNat) (v u : UInt32) :
    ((m.storeBy kind a v).state.storeBy other b u).state.encoding a =
      ((m.storeBy other b u).state.storeBy kind a v).state.encoding a := by
  have hquotient := Segments.wordBase_eq_iff.mp hword
  apply Word.ext_byte
  intro j hj
  rw [byte_two_stores hd ha hword hfits hother v u hj, encoding_congr hword,
    encoding_congr (m := ((m.storeBy other b u).state.storeBy kind a v).state) hword,
    byte_two_stores hd (ha.congr hword) hword.symm hother hfits u v hj]
  by_cases hb : b.toNat % 4 ≤ j ∧ j < b.toNat % 4 + other.length
  · rw [if_pos hb, if_pos hb, if_neg (by omega)]
  · rw [if_neg hb, if_neg hb]

/-- A store of `v` at `a` into text that asks the decoder for the statement of `w` and answers
`old`. The word has the written bytes in their places and the other bytes of the encoding, and the
answer has the bytes of the encoding that were replaced. -/
structure Rewrites (m : Memory) (kind : WordStore) (a v old w : UInt32) : Prop where
  merges : ∀ j < 4, Word.byte w j =
    if a.toNat % 4 ≤ j ∧ j < a.toNat % 4 + kind.length then Word.byte v (j - a.toNat % 4)
    else Word.byte (m.encoding a) j
  answers : ∀ j < 4, Word.byte old j =
    if j < kind.length then Word.byte (m.encoding a) (a.toNat % 4 + j) else 0
  asks : ∀ {M : Type → Type} [Monad M] [LawfulMonad M] (decode : DecoderIn M),
    m.storeByVia decode kind a v =
      (fun st => ⟨.ok old, m.putStatement (wordBase a) st,
        m.notify .write a kind.length (Word.low v kind.length) ++ kind.records m.sink a old⟩) <$>
          decode w (wordBase a)
  leaves : (m.storeBy kind a v).state =
    m.putStatement (wordBase a) (m.decoder w (wordBase a))
  changes : ∀ st, OnlyStatement m (m.putStatement (wordBase a) st) (wordBase a) st

theorem storeBy_isOk_iff (h : m.Rewritable a) {kind : WordStore} :
    (∃ old, (m.storeBy kind a v).answer = .ok old) ↔ kind.Fits a := by
  constructor
  · rintro ⟨old, hok⟩
    exact fits_of_ok h hok
  · intro hfits
    rw [storeBy_text h hfits]
    exact ⟨_, rfl⟩

theorem rewrites_of_ok (h : m.Rewritable a) {kind : WordStore} {old : UInt32}
    (hok : (m.storeBy kind a v).answer = .ok old) :
    m.Rewrites kind a v old (m.merged a v kind.length) := by
  have hfits := fits_of_ok h hok
  have hstep := storeBy_text h hfits v
  obtain rfl : m.replaced a kind.length = old := by
    rw [hstep] at hok
    exact Except.ok.inj hok
  exact {
    merges := fun j hj => byte_merged m a v kind.length hj
    answers := fun j hj => Word.byte_extract _ (Nat.mod_lt _ (by decide)) hj
    asks := fun decode => storeByVia_text h hfits decode v
    leaves := congrArg Step.state hstep
    changes := onlyStatement_putStatement h }

/-- A store into text that programs may change asks the decoder once, whatever effects the decoder
has: for the statement of the encoding before with the written bytes in their places, at the base of
the word. The statement that it answers is then there, and everything else in memory is as it was.
A store that fails does not ask and changes nothing. With a decoder that keeps encodings, stores of
two bytes of a statement leave the same encoding in either order. -/
theorem text_store_decodes_once (m : Memory) (kind : WordStore) (a v : UInt32) :
    (∀ {M : Type → Type} [Monad M] [LawfulMonad M],
      m.storeByVia (M := M) (fun w b => pure (m.decoder w b)) kind a v =
        pure (m.storeBy kind a v)) ∧
    (∀ fault, (m.storeBy kind a v).answer = .error fault →
      m.storeBy kind a v = .quiet (.error fault) m ∧
      ∀ {M : Type → Type} [Monad M] [LawfulMonad M] (decode : DecoderIn M),
        m.storeByVia decode kind a v = pure (.quiet (.error fault) m)) ∧
    (m.Rewritable a →
      ((∃ old, (m.storeBy kind a v).answer = .ok old) ↔ kind.Fits a) ∧
      ∀ old, (m.storeBy kind a v).answer = .ok old → ∃ w, m.Rewrites kind a v old w) ∧
    (m.decoder.Faithful → m.Rewritable a → kind.length = 1 →
      ∀ b u (other : WordStore), other.length = 1 → wordBase b = wordBase a → b ≠ a →
        (∃ old, (m.storeBy kind a v).answer = .ok old) ∧
        (∃ old, ((m.storeBy kind a v).state.storeBy other b u).answer = .ok old) ∧
        (∃ old, (m.storeBy other b u).answer = .ok old) ∧
        (∃ old, ((m.storeBy other b u).state.storeBy kind a v).answer = .ok old) ∧
        ((m.storeBy kind a v).state.storeBy other b u).state.encoding a =
          ((m.storeBy other b u).state.storeBy kind a v).state.encoding a) := by
  refine ⟨?_, ?_, ?_, ?_⟩
  · intro M _ _
    exact m.storeByVia_pure kind a v
  · intro fault hfault
    refine ⟨?_, fun decode => storeByVia_of_error decode hfault⟩
    have hpure := m.storeByVia_pure (M := Id) kind a v
    exact hpure.symm.trans (storeByVia_of_error _ hfault)
  · intro h
    exact ⟨storeBy_isOk_iff h, fun old hok => ⟨_, rewrites_of_ok h hok⟩⟩
  · intro hd ha hkind b u other hother hword hne
    have hb : m.Rewritable b := ha.congr hword.symm
    have hfits : kind.Fits a := WordStore.fits_of_length_one hkind
    have hfits' : other.Fits b := WordStore.fits_of_length_one hother
    have hapart : a.toNat + kind.length ≤ b.toNat ∨ b.toNat + other.length ≤ a.toNat := by
      have hdiff : b.toNat ≠ a.toNat := fun heq => hne (UInt32.toNat_inj.mp heq)
      omega
    exact ⟨(storeBy_isOk_iff ha).mpr hfits,
      (storeBy_isOk_iff (rewritable_storeBy ha hfits hb)).mpr hfits',
      (storeBy_isOk_iff hb).mpr hfits',
      (storeBy_isOk_iff (rewritable_storeBy hb hfits' ha)).mpr hfits,
      stores_commute hd ha hword.symm hfits hfits' hapart v u⟩

/-- A statement is rewritten at its last byte, with the one call that the decoder gets. A word that
is not aligned is refused without a call. -/
theorem last_byte_of_statement_rewritten :
    let m : Memory :=
      ({ ofLayout .compactTextAtZero with selfModifying := true } : Memory).putStatement 0x40
        (.ofBinary 0x500093 0x40)
    m.Rewritable 0x43 ∧ m.decoder.Faithful ∧
      (m.storeBy .word 0x42 7).answer = .error ⟨.write, .misaligned, 0x42⟩ ∧
      ((m.storeByVia m.decoder.logged .word 0x42 7).run []).2 = [] ∧
      (∃ old, (m.storeBy .byte 0x43 0xFF).answer = .ok old) ∧
      ((m.storeByVia m.decoder.logged .byte 0x43 0xFF).run []).2 = [(0xFF500093, 0x40)] ∧
      ((m.storeBy .byte 0x43 0xFF).state.storeBy (.bytes 1) 0x42 0x70).state.encoding 0x43 =
        ((m.storeBy (.bytes 1) 0x42 0x70).state.storeBy .byte 0x43 0xFF).state.encoding 0x43 := by
  intro m
  have h : m.Rewritable 0x43 := ⟨rfl, by decide⟩
  have hd : m.decoder.Faithful := Decoder.faithful_binary
  have hrefused : (m.storeBy .word 0x42 7).answer = .error ⟨.write, .misaligned, 0x42⟩ := rfl
  obtain ⟨-, hfault, -, -⟩ := text_store_decodes_once m .word 0x42 7
  obtain ⟨-, -, hstore, hbytes⟩ := text_store_decodes_once m .byte 0x43 0xFF
  obtain ⟨hok, hrewrites⟩ := hstore h
  obtain ⟨old, hold⟩ := hok.mpr trivial
  obtain ⟨w, hw⟩ := hrewrites old hold
  have hencoding : m.encoding 0x43 = 0x500093 :=
    encoding_putStatement (m := { ofLayout .compactTextAtZero with selfModifying := true })
      (a := 0x43) ⟨rfl, by decide⟩ _
  obtain rfl : w = 0xFF500093 := by
    apply Word.ext_byte
    intro j hj
    rw [hw.merges j hj, hencoding]
    revert j
    decide
  refine ⟨h, hd, hrefused, ?_, ⟨old, hold⟩, ?_, ?_⟩
  · rw [(hfault _ hrefused).2]
    rfl
  · rw [hw.asks]
    rfl
  · exact (hbytes hd h rfl 0x42 0x70 (.bytes 1) rfl (by decide) (by decide)).2.2.2.2

end Text

end Memory
end ArchState
