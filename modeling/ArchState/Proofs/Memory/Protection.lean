import ArchState.Proofs.Memory.Request

/-! # Text that programs may not change

While the switch for self-modifying code is off, no store reaches the table of text. A store that
is carried out is served by another segment, so it leaves every statement alone and has no use for
the decoder, and a store with a byte in text is refused as a whole.
-/
namespace ArchState.Memory
variable {m : Memory} {seg : Segment} {a b v w : UInt32} {length : Nat} {decoder : Decoder}

def decodedBy (m : Memory) (decoder : Decoder) : Memory := { m with decoder }

theorem text_putWord (h : seg ≠ .text) (a w : UInt32) :
    (m.putWord seg a w).image.text = m.image.text := by
  cases seg with
  | text => exact absurd rfl h
  | data | stack | mmio => rfl

theorem putWord_decodedBy (h : seg ≠ .text) (a w : UInt32) :
    (m.decodedBy decoder).putWord seg a w = (m.putWord seg a w).decodedBy decoder := by
  cases seg with
  | text => exact absurd rfl h
  | data | stack | mmio => rfl

/-- Parts that are written outside text leave text alone, and they are the same under every
decoder. -/
theorem foldl_writePart_of_ne_text (h : seg ≠ .text) (decoder : Decoder) (v : UInt32)
    (ps : List Part) (old : UInt32) (m : Memory) :
    let f := fun (s : UInt32 × Memory) p => (s.1 ||| s.2.loadPart seg p, s.2.writePart seg v p)
    (ps.foldl f (old, m)).2.image.text = m.image.text ∧
      ps.foldl f (old, m.decodedBy decoder) =
        ((ps.foldl f (old, m)).1, (ps.foldl f (old, m)).2.decodedBy decoder) := by
  intro f
  induction ps generalizing old m with
  | nil => exact ⟨rfl, rfl⟩
  | cons p ps ih =>
    obtain ⟨htext, hdecoder⟩ := ih (old ||| m.loadPart seg p) (m.writePart seg v p)
    have hpart : f (old, m.decodedBy decoder) p =
        (old ||| m.loadPart seg p, (m.writePart seg v p).decodedBy decoder) :=
      congrArg (Prod.mk _) (putWord_decodedBy h _ _)
    rw [List.foldl_cons, List.foldl_cons, hpart]
    exact ⟨htext.trans (text_putWord h _ _), hdecoder⟩

theorem text_replace (h : seg ≠ .text) (a v : UInt32) (length : Nat) :
    (m.replace seg a v length).2.image.text = m.image.text :=
  (foldl_writePart_of_ne_text h m.decoder v (parts a length) 0 m).1

theorem replace_decodedBy (h : seg ≠ .text) (a v : UInt32) (length : Nat) :
    (m.decodedBy decoder).replace seg a v length =
      ((m.replace seg a v length).1, (m.replace seg a v length).2.decodedBy decoder) :=
  (foldl_writePart_of_ne_text h decoder v (parts a length) 0 m).2

theorem text_set (hoff : m.selfModifying = false) (a v : UInt32) (length : Nat) :
    (m.set a v length).state.image.text = m.image.text := by
  cases hl : m.locate .write a length with
  | error fault => rw [set_of_fault hl, Step.quiet]
  | ok seg =>
    rw [set_eq_replace hl]
    exact text_replace (ne_text_of_locate hoff hl) a v length

theorem text_storeAll (hoff : m.selfModifying = false) (writes : List StoreRequest) :
    (m.storeAll writes).image.text = m.image.text := by
  induction writes generalizing m with
  | nil => rfl
  | cons w writes ih =>
    obtain ⟨image, fits, hframe⟩ := m.set_frame w.address w.value w.length
    have hnext : (m.set w.address w.value w.length).state.selfModifying = false := by
      rw [hframe]
      exact hoff
    exact (ih hnext).trans (text_set hoff w.address w.value w.length)

/-- Without a change of the table of text and of the layout, every statement reads as before. -/
theorem fetchStatement_congr {n : Memory} (hlayout : n.layout = m.layout)
    (htext : n.image.text = m.image.text) (a : UInt32) :
    n.fetchStatement a = m.fetchStatement a := by
  have hsegments : n.segments = m.segments := congrArg Segments.ofLayout hlayout
  rw [fetchStatement, fetchStatement, checkText, checkText, statementAt?, statementAt?, hsegments,
    htext]

theorem Decided.state_frame {writes : List StoreRequest} {s : Step Memory (Option Answer)}
    (h : Decided m writes s) : ∃ image fits, s.state = m.withImage image fits := by
  rcases h with rfl | hmade
  · exact ⟨m.image, m.fits, rfl⟩
  · rw [hmade.state]
    exact m.storeAll_frame writes

theorem Decided.text_eq {writes : List StoreRequest} {s : Step Memory (Option Answer)}
    (h : Decided m writes s) (hoff : m.selfModifying = false) :
    s.state.image.text = m.image.text := by
  rcases h with rfl | hmade
  · rfl
  · rw [hmade.state]
    exact text_storeAll hoff writes

/-- A store is refused when one of its writes begins in a word of text. -/
theorem Decided.refused_of_text {writes : List StoreRequest} {s : Step Memory (Option Answer)}
    (h : Decided m writes s) (hoff : m.selfModifying = false)
    (htext : ∃ w ∈ writes, m.segments.owner? (wordBase w.address) = some .text) :
    s = .quiet none m := by
  rcases h with hrefused | hmade
  · exact hrefused
  · obtain ⟨w, hw, howner⟩ := htext
    have haccepts := hmade.allowed w hw
    rw [accepts] at haccepts
    cases hl : m.locate .write w.address w.length with
    | error fault =>
      rw [hl] at haccepts
      cases haccepts
    | ok seg =>
      obtain ⟨-, -, hfirst, -, -⟩ := locate_eq_ok_iff.mp hl
      have hword : m.segments.owner? (wordBase w.address) = m.segments.owner? w.address :=
        Segments.owner?_congr (wordBase_wordBase w.address)
      have hseg : seg = .text := Option.some.inj (hfirst.symm.trans (hword.symm.trans howner))
      exact absurd hseg (ne_text_of_locate hoff hl)

theorem set_decodedBy (hoff : m.selfModifying = false) (a v : UInt32) (length : Nat) :
    (m.decodedBy decoder).set a v length = (m.set a v length).within (·.decodedBy decoder) := by
  cases hl : m.locate .write a length with
  | error fault =>
    have hl' : (m.decodedBy decoder).locate .write a length = .error fault := hl
    rw [set_of_fault hl, set_of_fault hl']
    rfl
  | ok seg =>
    have hl' : (m.decodedBy decoder).locate .write a length = .ok seg := hl
    rw [set_eq_replace hl, set_eq_replace hl', replace_decodedBy (ne_text_of_locate hoff hl)]
    rfl

theorem setAligned_decodedBy (hoff : m.selfModifying = false) (a v : UInt32) (length : Nat)
    (record : UInt32 → UInt32 → UndoRecord) :
    (m.decodedBy decoder).setAligned a v length record =
      (m.setAligned a v length record).within (·.decodedBy decoder) := by
  rw [setAligned, setAligned, set_decodedBy hoff]
  obtain ⟨answer, state, signals⟩ := m.set a v length
  cases checkAligned .write a length with
  | error fault => rfl
  | ok _ => cases answer <;> rfl

theorem storeDouble_decodedBy (hoff : m.selfModifying = false) (a : UInt32) (d : UInt64) :
    (m.decodedBy decoder).storeDouble a d =
      (m.storeDouble a d).within (·.decodedBy decoder) := by
  cases hcheck : m.checkDoubleStore a with
  | error fault =>
    have hcheck' : (m.decodedBy decoder).checkDoubleStore a = .error fault := hcheck
    rw [storeDouble, storeDouble, hcheck, hcheck']
    rfl
  | ok b =>
    obtain ⟨haligned, hinside, -, ⟨low, hlow⟩, high, hhigh⟩ := checkDoubleStore_eq_ok_iff.mp hcheck
    have hpair := wordPair_of_locate haligned hinside hlow hhigh
    have hpair' : (m.decodedBy decoder).WordPair a low high :=
      ⟨hpair.aligned, hpair.inside, hpair.lower, hpair.upper⟩
    rw [storeDouble_of_pair hpair, storeDouble_of_pair hpair',
      putWord_decodedBy (ne_text_of_locate hoff hlow),
      putWord_decodedBy (ne_text_of_locate hoff hhigh)]
    rfl

theorem setDouble_decodedBy (hoff : m.selfModifying = false) (a : UInt32) (d : UInt64) :
    (m.decodedBy decoder).setDouble a d = (m.setDouble a d).within (·.decodedBy decoder) := by
  rw [setDouble, setDouble, storeDouble_decodedBy hoff]
  obtain ⟨answer, state, signals⟩ := m.storeDouble a d
  cases answer <;> rfl

theorem storeAs_decodedBy (hoff : m.selfModifying = false) (kind : AccessKind) (a : UInt32)
    (d : UInt64) :
    (m.decodedBy decoder).storeAs a d kind = (m.storeAs a d kind).within (·.decodedBy decoder) := by
  cases kind with
  | bytes length =>
    rw [storeAs, storeAs, set_decodedBy hoff]
    rfl
  | byte =>
    rw [storeAs, storeAs, setByte, setByte, setAligned_decodedBy hoff]
    rfl
  | half =>
    rw [storeAs, storeAs, setHalf, setHalf, setAligned_decodedBy hoff]
    rfl
  | word =>
    rw [storeAs, storeAs, setWord, setWord, setAligned_decodedBy hoff]
    rfl
  | double =>
    rw [storeAs, storeAs, setDouble_decodedBy hoff]
    rfl

theorem restore_decodedBy (hoff : m.selfModifying = false) (record : UndoRecord) :
    (m.decodedBy decoder).restore record = (m.restore record).within (·.decodedBy decoder) := by
  cases record with
  | word a v | half a v | byte a v =>
    rw [restore, restore, set_decodedBy hoff]
    rfl
  | rawWord a v =>
    rw [restore, restore, set_decodedBy hoff]
    cases checkAligned .write a 4 <;> rfl
  | doubleWord a d =>
    rw [restore, restore, storeDouble_decodedBy hoff]
    rfl
  | register n v | floatRegister n v | controlRegister n v | programCounter v => rfl

end ArchState.Memory
