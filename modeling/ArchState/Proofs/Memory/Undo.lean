import ArchState.Proofs.Memory.FlatBytes

/-! # Undoing stores

What a store answers is enough to undo it. Two memories agree when they are laid out alike and
have the same bytes; null words and the sources of statements may differ. In a memory that
agrees with what a store has left, writing the answer back leaves what was before the store.
-/
namespace ArchState

theorem ByteMap.write_apply (f : ByteMap) (a v b : UInt32) (length : Nat) :
    f.write a v length b =
      if a.toNat ≤ b.toNat ∧ b.toNat < a.toNat + length then some (Word.byte v (b.toNat - a.toNat))
      else f b := rfl

namespace Memory
variable {m n : Memory} {seg : Segment} {a b v old : UInt32} {length : Nat}

/-- Two memories that programs cannot tell apart by reading words. -/
structure Agrees (m n : Memory) : Prop where
  layout : m.layout = n.layout
  selfModifying : m.selfModifying = n.selfModifying
  decoder : m.decoder = n.decoder
  bytes : m.bytes = n.bytes

theorem Agrees.refl (m : Memory) : m.Agrees m := ⟨rfl, rfl, rfl, rfl⟩

theorem Agrees.owner? (h : m.Agrees n) (b : UInt32) :
    m.segments.owner? b = n.segments.owner? b := by
  rw [segments, segments, h.layout]

theorem Agrees.locate (h : m.Agrees n) (access : Access) (a : UInt32) (length : Nat) :
    m.locate access a length = n.locate access a length := by
  simp only [Memory.locate, h.owner?, h.selfModifying]

theorem Agrees.byteAt (h : m.Agrees n) (hb : m.segments.owner? b = some seg) :
    m.byteAt seg b = n.byteAt seg b := by
  have hbytes := congrFun h.bytes b
  rw [bytes_of_owner hb, bytes_of_owner (h.owner? b ▸ hb)] at hbytes
  exact Option.some.inj hbytes

theorem Agrees.wordAt (h : m.Agrees n) (haligned : a.toNat % 4 = 0)
    (ha : m.segments.owner? a = some seg) : m.wordAt seg a = n.wordAt seg a := by
  have hm := Segments.contains_of_owner? ha
  have hn := Segments.contains_of_owner? (h.owner? a ▸ ha)
  apply Word.ext_byte
  intro j hj
  have hlt := a.toNat_lt
  have hbase : wordBase (a + UInt32.ofNat j) = wordBase a := by
    rw [Segments.wordBase_eq_iff, toNat_add_ofNat (by omega)]
    omega
  rw [← byteAt_add haligned hm hj, ← byteAt_add haligned hn hj]
  exact h.byteAt ((Segments.owner?_congr hbase).trans ha)

theorem Agrees.rawWord (h : m.Agrees n) : m.rawWord = n.rawWord := by
  funext a
  have howner := h.owner? a
  by_cases haligned : a.toNat % 4 = 0
  · simp only [Memory.rawWord, rawWord?, checkAligned, if_pos haligned, ← howner]
    cases ho : m.segments.owner? a with
    | none => rfl
    | some seg => exact congrArg Except.ok (h.wordAt haligned ho)
  · simp only [Memory.rawWord, rawWord?, checkAligned, if_neg haligned]
    rfl

theorem write_load {access : Access} (h : m.locate access a length = .ok seg) :
    m.bytes.write a (m.load seg a length) length = m.bytes := by
  obtain ⟨hl, hw, -, -, -⟩ := locate_eq_ok_iff.mp h
  obtain ⟨ha, hz⟩ := contains_of_locate h
  funext b
  rw [ByteMap.write_apply]
  split
  · rename_i hin
    have hb : a + UInt32.ofNat (b.toNat - a.toNat) = b := by
      rw [← UInt32.toNat_inj, toNat_add_ofNat (by omega)]
      omega
    rw [byte_load (by omega) hw ha hz (by omega), if_pos (by omega), hb,
      bytes_of_owner (owner?_of_locate h hin.1 hin.2)]
  · rfl

theorem write_write (f : ByteMap) (a v w : UInt32) (length : Nat) :
    (f.write a v length).write a w length = f.write a w length := by
  funext b
  simp only [ByteMap.write_apply]
  split <;> rfl

theorem recordsTo_notify (m : Memory) (sink : Sink) (access : Access) (a : UInt32)
    (length : Nat) (value : UInt32) :
    Signal.recordsTo sink (m.notify access a length value) = [] := by
  rw [Signal.recordsTo, notify, List.filterMap_map, List.filterMap_eq_nil_iff]
  intro r _
  rfl

/-- What a store that succeeds has answered, left and sent. -/
structure Stored (m : Memory) (a v : UInt32) (length : Nat) (seg : Segment) (old : UInt32) :
    Prop where
  allowed : m.locate .write a length = .ok seg
  answer : old = m.load seg a length
  bytes : (m.set a v length).state.bytes = m.bytes.write a v length
  frame : ∃ image fits, (m.set a v length).state = m.withImage image fits
  silent : ∀ sink, Signal.recordsTo sink (m.set a v length).signals = []

theorem stored_of_locate (hd : m.decoder.Faithful) (h : m.locate .write a length = .ok seg)
    (v : UInt32) : (m.set a v length).answer = .ok (m.load seg a length) ∧
      Stored m a v length seg (m.load seg a length) := by
  have hset := set_of_locate hd h v
  refine ⟨by rw [hset], h, rfl, ?_, ?_, ?_⟩
  · rw [hset]
    exact bytes_replace hd h v
  · rw [hset]
    exact replace_frame m seg a v length
  · intro sink
    rw [hset]
    exact recordsTo_notify _ sink _ _ _ _

theorem Stored.keeps (h : Stored m a v length seg old) :
    (m.set a v length).state.layout = m.layout ∧
      (m.set a v length).state.selfModifying = m.selfModifying ∧
      (m.set a v length).state.decoder = m.decoder ∧ (m.set a v length).state.sink = m.sink := by
  obtain ⟨image, fits, hm⟩ := h.frame
  rw [hm]
  exact ⟨rfl, rfl, rfl, rfl⟩

theorem Stored.locate (h : Stored m a v length seg old) (access : Access) (b : UInt32)
    (width : Nat) : (m.set a v length).state.locate access b width = m.locate access b width := by
  obtain ⟨image, fits, hm⟩ := h.frame
  rw [hm, locate_withImage]

/-- The answer of a store, written back to where it came from, undoes the store. -/
theorem Stored.undone (hd : m.decoder.Faithful) (h : Stored m a v length seg old)
    (hn : n.Agrees (m.set a v length).state) :
    ∃ w, (n.set a old length).answer = .ok w ∧ Stored n a old length seg w ∧
      (n.set a old length).state.Agrees m := by
  obtain ⟨hlayout, hself, hdecoder, -⟩ := h.keeps
  have hallowed : n.locate .write a length = .ok seg := by
    rw [hn.locate, h.locate, h.allowed]
  have hdn : n.decoder.Faithful := by
    rw [hn.decoder, hdecoder]
    exact hd
  obtain ⟨hanswer, hback⟩ := stored_of_locate hdn hallowed old
  obtain ⟨hlayout', hself', hdecoder', -⟩ := hback.keeps
  refine ⟨_, hanswer, hback, ?_, ?_, ?_, ?_⟩
  · rw [hlayout', hn.layout, hlayout]
  · rw [hself', hn.selfModifying, hself]
  · rw [hdecoder', hn.decoder, hdecoder]
  · rw [hback.bytes, hn.bytes, h.bytes, write_write, h.answer, write_load h.allowed]

/-- What a store of a double word that succeeds has done: two stores of words. -/
structure StoredDouble (m : Memory) (a : UInt32) (d old : UInt64) : Prop where
  aligned : a.toNat % 4 = 0
  inside : a.toNat + 4 < 0x100000000
  low : ∃ seg, Stored m a (DoubleWord.lowWord d) 4 seg (DoubleWord.lowWord old)
  high : ∃ seg, Stored (m.set a (DoubleWord.lowWord d) 4).state (a + 4) (DoubleWord.highWord d) 4
    seg (DoubleWord.highWord old)
  step : m.storeDouble a d =
    let low := m.set a (DoubleWord.lowWord d) 4
    let high := low.state.set (a + 4) (DoubleWord.highWord d) 4
    ⟨.ok old, high.state, low.signals ++ high.signals⟩

theorem checkWordStore_eq (m : Memory) (haligned : a.toNat % 4 = 0) :
    m.checkWordStore a = (m.locate .write a 4).map fun _ => () := by
  have hlength : ¬ ((4 : Nat) ≠ 1 ∧ (4 : Nat) ≠ 2 ∧ (4 : Nat) ≠ 4) := by decide
  have hlast : a + UInt32.ofNat (4 - 1) = a + 3 := rfl
  rw [checkWordStore, Memory.locate, if_neg hlength, hlast, haligned]
  by_cases hw : 0x100000000 < a.toNat + 4
  · rw [if_pos hw, if_pos hw]
    rfl
  · rw [if_neg hw, if_neg hw]
    cases ho : m.segments.owner? a with
    | none => rfl
    | some seg =>
      cases seg with
      | text => cases hs : m.selfModifying <;> rfl
      | data | stack | mmio =>
        dsimp only
        split <;> rfl

theorem upper_aligned (haligned : a.toNat % 4 = 0) (hinside : a.toNat + 4 < 0x100000000) :
    (a + 4).toNat = a.toNat + 4 ∧ (a + 4).toNat % 4 = 0 := by
  have h : (a + 4).toNat = a.toNat + 4 := toNat_add_ofNat hinside
  exact ⟨h, by omega⟩

theorem checkDoubleStore_eq_ok_iff : m.checkDoubleStore a = .ok b ↔
    a.toNat % 4 = 0 ∧ a.toNat + 4 < 0x100000000 ∧ b = a + 4 ∧
      (∃ seg, m.locate .write a 4 = .ok seg) ∧ ∃ seg, m.locate .write (a + 4) 4 = .ok seg := by
  by_cases haligned : a.toNat % 4 = 0
  · by_cases hinside : a.toNat + 4 < 0x100000000
    · have hcheck : m.checkDoubleStore a = do
          (m.locate .write a 4).map fun _ => ()
          (m.locate .write (a + 4) 4).map fun _ => ()
          return a + 4 := by
        rw [← checkWordStore_eq m haligned,
          ← checkWordStore_eq m (upper_aligned haligned hinside).2, checkDoubleStore, upperHalf,
          checkAligned, if_pos haligned, if_pos hinside]
        rfl
      rw [hcheck]
      cases hlow : m.locate .write a 4 with
      | error fault =>
        constructor
        · intro h
          cases h
        · rintro ⟨-, -, -, ⟨seg, hseg⟩, -⟩
          cases hseg
      | ok lowSeg =>
        cases hhigh : m.locate .write (a + 4) 4 with
        | error fault =>
          constructor
          · intro h
            cases h
          · rintro ⟨-, -, -, -, seg, hseg⟩
            cases hseg
        | ok highSeg =>
          constructor
          · intro h
            exact ⟨haligned, hinside, (Except.ok.inj h).symm, ⟨lowSeg, rfl⟩, highSeg, rfl⟩
          · rintro ⟨-, -, rfl, -⟩
            rfl
    · rw [checkDoubleStore, upperHalf, checkAligned, if_pos haligned, if_neg hinside]
      constructor
      · intro h
        cases h
      · intro h
        exact absurd h.2.1 hinside
  · rw [checkDoubleStore, upperHalf, checkAligned, if_neg haligned]
    constructor
    · intro h
      cases h
    · intro h
      exact absurd h.1 haligned

theorem storedDouble_of_check (hd : m.decoder.Faithful) (h : m.checkDoubleStore a = .ok b)
    (d : UInt64) : ∃ old, StoredDouble m a d old := by
  obtain ⟨haligned, hinside, rfl, ⟨lowSeg, hlow⟩, highSeg, hhigh⟩ :=
    checkDoubleStore_eq_ok_iff.mp h
  obtain ⟨hlowAnswer, hlowStored⟩ := stored_of_locate hd hlow (DoubleWord.lowWord d)
  have hdn : (m.set a (DoubleWord.lowWord d) 4).state.decoder.Faithful := by
    rw [hlowStored.keeps.2.2.1]
    exact hd
  obtain ⟨hhighAnswer, hhighStored⟩ := stored_of_locate hdn
    ((hlowStored.locate .write (a + 4) 4).trans hhigh) (DoubleWord.highWord d)
  refine ⟨DoubleWord.ofWords (m.load lowSeg a 4)
    ((m.set a (DoubleWord.lowWord d) 4).state.load highSeg (a + 4) 4),
    haligned, hinside, ⟨lowSeg, ?_⟩, ⟨highSeg, ?_⟩, ?_⟩
  · rw [DoubleWord.lowWord_ofWords]
    exact hlowStored
  · rw [DoubleWord.highWord_ofWords]
    exact hhighStored
  · simp only [storeDouble, h, Step.guarded, Step.thenTry, Step.andThen, hlowAnswer,
      hhighAnswer, Step.quiet, List.append_nil]

theorem StoredDouble.keeps {d old : UInt64} (h : StoredDouble m a d old) :
    (m.storeDouble a d).state.layout = m.layout ∧
      (m.storeDouble a d).state.selfModifying = m.selfModifying ∧
      (m.storeDouble a d).state.decoder = m.decoder ∧
      (m.storeDouble a d).state.sink = m.sink := by
  obtain ⟨_, hlow⟩ := h.low
  obtain ⟨_, hhigh⟩ := h.high
  obtain ⟨h₁, h₂, h₃, h₄⟩ := hlow.keeps
  obtain ⟨h₁', h₂', h₃', h₄'⟩ := hhigh.keeps
  rw [h.step]
  exact ⟨h₁'.trans h₁, h₂'.trans h₂, h₃'.trans h₃, h₄'.trans h₄⟩

theorem write_comm (f : ByteMap) (h : a.toNat + 4 ≤ b.toNat) (v w : UInt32) :
    (f.write a v 4).write b w 4 = (f.write b w 4).write a v 4 := by
  funext c
  simp only [ByteMap.write_apply]
  by_cases ha : a.toNat ≤ c.toNat ∧ c.toNat < a.toNat + 4
  · rw [if_pos ha, if_pos ha, if_neg (by omega)]
  · rw [if_neg ha, if_neg ha]

theorem StoredDouble.bytes {d old : UInt64} (h : StoredDouble m a d old) :
    (m.storeDouble a d).state.bytes =
      (m.bytes.write a (DoubleWord.lowWord d) 4).write (a + 4) (DoubleWord.highWord d) 4 := by
  obtain ⟨_, hlow⟩ := h.low
  obtain ⟨_, hhigh⟩ := h.high
  rw [h.step]
  exact hhigh.bytes.trans (by rw [hlow.bytes])

theorem StoredDouble.silent {d old : UInt64} (h : StoredDouble m a d old) (sink : Sink) :
    Signal.recordsTo sink (m.storeDouble a d).signals = [] := by
  obtain ⟨_, hlow⟩ := h.low
  obtain ⟨_, hhigh⟩ := h.high
  rw [h.step]
  simp only [Signal.recordsTo_append, hlow.silent sink, hhigh.silent sink, List.append_nil]

/-- The two words that a store of a double word has answered, written back in the same order,
undo it. -/
theorem StoredDouble.undone (hd : m.decoder.Faithful) {d old : UInt64}
    (h : StoredDouble m a d old) (hn : n.Agrees (m.storeDouble a d).state) :
    ∃ w, StoredDouble n a old w ∧ (n.storeDouble a old).state.Agrees m := by
  obtain ⟨hlayout, hself, hdecoder, -⟩ := h.keeps
  obtain ⟨lowSeg, hlow⟩ := h.low
  obtain ⟨highSeg, hhigh⟩ := h.high
  have hlocate : ∀ c, n.locate .write c 4 = m.locate .write c 4 := by
    intro c
    rw [hn.locate, h.step]
    exact (hhigh.locate .write c 4).trans (hlow.locate .write c 4)
  have hcheck : n.checkDoubleStore a = .ok (a + 4) := by
    rw [checkDoubleStore_eq_ok_iff, hlocate, hlocate]
    exact ⟨h.aligned, h.inside, rfl, ⟨lowSeg, hlow.allowed⟩, highSeg,
      (hlow.locate .write (a + 4) 4).symm.trans hhigh.allowed⟩
  have hdn : n.decoder.Faithful := by
    rw [hn.decoder, hdecoder]
    exact hd
  obtain ⟨w, hback⟩ := storedDouble_of_check hdn hcheck old
  obtain ⟨hlayout', hself', hdecoder', -⟩ := hback.keeps
  refine ⟨w, hback, ?_, ?_, ?_, ?_⟩
  · rw [hlayout', hn.layout, hlayout]
  · rw [hself', hn.selfModifying, hself]
  · rw [hdecoder', hn.decoder, hdecoder]
  · have hlt : a.toNat + 4 ≤ (a + 4).toNat := Nat.le_of_eq (upper_aligned h.aligned h.inside).1.symm
    have hlowBack := write_load hlow.allowed
    have hhighBack := write_load hhigh.allowed
    rw [← hlow.answer] at hlowBack
    rw [← hhigh.answer, hlow.bytes] at hhighBack
    -- the upper word is put back first, as the two stores do not interfere
    rw [hback.bytes, hn.bytes, h.bytes, write_comm _ hlt, write_write, hhighBack, write_write,
      hlowBack]

end Memory
end ArchState
