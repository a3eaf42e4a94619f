import ArchState.Memory.Access
import ArchState.Memory.View

/-! # What accesses do

Each access is described once: what its success says about the address, which contents it
leaves and what it answers. A store changes the image alone, so all that a later access is
checked against stays as it is.
-/
namespace ArchState.Memory
variable {m : Memory} {seg other : Segment} {a b : UInt32} {length : Nat}

def withImage (m : Memory) (image : Image) (fits : image.Fits (Segments.ofLayout m.layout)) :
    Memory := { m with image, fits }

theorem foldl_writePart_frame (seg : Segment) (v : UInt32) (ps : List Part) (old : UInt32)
    (m : Memory) : ∃ image fits,
      (ps.foldl (fun (old, m) p => (old ||| m.loadPart seg p, m.writePart seg v p))
        (old, m)).2 = m.withImage image fits := by
  induction ps generalizing old m with
  | nil => exact ⟨m.image, m.fits, rfl⟩
  | cons p ps ih =>
    obtain ⟨image, fits, h⟩ := ih (old ||| m.loadPart seg p) (m.writePart seg v p)
    exact ⟨image, fits, h⟩

theorem replace_frame (m : Memory) (seg : Segment) (a v : UInt32) (length : Nat) :
    ∃ image fits, (m.replace seg a v length).2 = m.withImage image fits :=
  foldl_writePart_frame seg v (parts a length) 0 m

theorem locate_withImage (m : Memory) (image : Image)
    (fits : image.Fits (Segments.ofLayout m.layout)) (access : Access) (a : UInt32)
    (length : Nat) : (m.withImage image fits).locate access a length = m.locate access a length :=
  rfl

theorem contains_of_locate {access : Access} (h : m.locate access a length = .ok seg) :
    (m.segments.bounds seg).contains a = true ∧
      (m.segments.bounds seg).contains (a + UInt32.ofNat (length - 1)) = true := by
  obtain ⟨-, -, ha, hz, -⟩ := locate_eq_ok_iff.mp h
  exact ⟨Segments.contains_of_owner? ha, Segments.contains_of_owner? hz⟩

theorem owner?_of_locate {access : Access} (h : m.locate access a length = .ok seg)
    (hab : a.toNat ≤ b.toNat) (hb : b.toNat < a.toNat + length) :
    m.segments.owner? b = some seg := by
  obtain ⟨hl, hw, ha, hz, -⟩ := locate_eq_ok_iff.mp h
  by_cases hword : a.toNat / 4 = b.toNat / 4
  · exact (Segments.owner?_congr (Segments.wordBase_eq_iff.mpr hword)).symm.trans ha
  · refine (Segments.owner?_congr (Segments.wordBase_eq_iff.mpr ?_)).trans hz
    rw [last_toNat (by omega) hw]
    omega

/-- A store that is allowed is carried out, whatever the decoder makes of text. -/
theorem set_eq_replace (h : m.locate .write a length = .ok seg) (v : UInt32) :
    m.set a v length =
      ⟨.ok (m.replace seg a v length).1, (m.replace seg a v length).2,
        (m.replace seg a v length).2.notify .write a length (Word.low v length)⟩ := by
  obtain ⟨hl, hw, -, -, -⟩ := locate_eq_ok_iff.mp h
  obtain ⟨ha, hz⟩ := contains_of_locate h
  rw [set, store_eq, h, Step.guarded, storeParts_eq (by omega) hw ha hz]
  rfl

theorem set_of_locate (hd : m.decoder.Faithful) (h : m.locate .write a length = .ok seg)
    (v : UInt32) : m.set a v length =
      ⟨.ok (m.load seg a length), (m.replace seg a v length).2,
        (m.replace seg a v length).2.notify .write a length (Word.low v length)⟩ := by
  obtain ⟨hl, hw, -, -, -⟩ := locate_eq_ok_iff.mp h
  obtain ⟨ha, hz⟩ := contains_of_locate h
  rw [set_eq_replace h, replace_fst hd (by omega) hw ha hz]

theorem set_of_fault {fault : AddressFault} (h : m.locate .write a length = .error fault)
    (v : UInt32) : m.set a v length = .quiet (.error fault) m := by
  rw [set, store_eq, h]
  rfl

theorem get_of_locate (h : m.locate .read a length = .ok seg) : m.get a length =
    ⟨.ok (m.load seg a length), m.notify .read a length (m.load seg a length)⟩ := by
  rw [get, fetch_eq, h]
  rfl

theorem get_of_fault {fault : AddressFault} (h : m.locate .read a length = .error fault) :
    m.get a length = ⟨.error fault, []⟩ := by
  rw [get, fetch_eq, h]
  rfl

/-- A load answers a number and tells the observers about it, or fails and tells nobody. -/
theorem get_cases (m : Memory) (a : UInt32) (length : Nat) :
    (∃ fault, m.get a length = ⟨.error fault, []⟩) ∨
      ∃ v, m.get a length = ⟨.ok v, m.notify .read a length v⟩ := by
  rw [get]
  cases m.fetch a length with
  | error fault => exact .inl ⟨fault, rfl⟩
  | ok v => exact .inr ⟨v, rfl⟩

theorem getAligned_cases (m : Memory) (a : UInt32) (length : Nat) :
    (∃ fault, m.getAligned a length = ⟨.error fault, []⟩) ∨
      ∃ v, m.getAligned a length = ⟨.ok v, m.notify .read a length v⟩ := by
  rw [getAligned]
  cases checkAligned .read a length with
  | error fault => exact .inl ⟨fault, rfl⟩
  | ok _ => exact m.get_cases a length

theorem getDouble_cases (m : Memory) (a : UInt32) :
    (∃ fault, m.getDouble a = ⟨.error fault, []⟩) ∨
      ∃ low high, m.getDouble a = ⟨.ok (DoubleWord.ofWords low high),
        m.notify .read a 4 low ++ m.notify .read (a + 4) 4 high⟩ := by
  rw [getDouble, upperHalf]
  cases checkAligned .read a 4 with
  | error fault => exact .inl ⟨fault, rfl⟩
  | ok _ =>
    by_cases hinside : a.toNat + 4 < 0x100000000
    · rw [if_pos hinside]
      cases hlow : m.fetch a 4 with
      | error fault => exact .inl ⟨fault, rfl⟩
      | ok low =>
        cases hhigh : m.fetch (a + 4) 4 with
        | error fault =>
          exact .inl ⟨fault, by simp only [bind, Except.bind, Reading.guarded, hhigh]⟩
        | ok high =>
          exact .inr ⟨low, high, by simp only [bind, Except.bind, Reading.guarded, hhigh]⟩
    · rw [if_neg hinside]
      exact .inl ⟨_, rfl⟩

theorem load_replace (hd : m.decoder.Faithful) (h : m.locate .write a length = .ok seg)
    (v : UInt32) : (m.replace seg a v length).2.load seg a length = Word.low v length := by
  obtain ⟨hl, hw, -, -, -⟩ := locate_eq_ok_iff.mp h
  obtain ⟨ha, hz⟩ := contains_of_locate h
  obtain ⟨image, fits, hm⟩ := replace_frame m seg a v length
  apply Word.ext_byte
  intro j hj
  rw [hm, byte_load (m := m.withImage image fits) (by omega) hw ha hz hj, ← hm,
    Word.byte_low _ _ hj]
  by_cases hlt : j < length
  · have hn : (a + UInt32.ofNat j).toNat = a.toNat + j := toNat_add_ofNat (by omega)
    have hown := owner?_of_locate (b := a + UInt32.ofNat j) h (by omega) (by omega)
    rw [if_pos hlt, if_pos hlt, byteAt_replace hd (by omega) hw ha hz v
      (Segments.contains_of_owner? hown), if_pos ⟨rfl, by omega, by omega⟩, hn]
    congr 1
    omega
  · rw [if_neg hlt, if_neg hlt]

end ArchState.Memory
