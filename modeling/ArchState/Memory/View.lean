import ArchState.Layout.Slots
import ArchState.Memory.Store

/-! # Memory as bytes

A memory is seen as one byte for each address of each segment. A write changes the bytes that
it covers in its own segment and no other byte of any segment. The decoder is taken to keep
the encodings that it is given, so that text has bytes as well.
-/
namespace ArchState.Memory
variable {m : Memory} {seg other : Segment} {a b base : UInt32}

/-- What the bytes from `a` on held and the memory in which they are the lowest `length` bytes
of `v`. Past the table of the segment nothing is written. -/
def replace (m : Memory) (seg : Segment) (a v : UInt32) (length : Nat) : UInt32 × Memory :=
  (parts a length).foldl
    (fun (old, m) p => (old ||| m.loadPart seg p, m.writePart seg v p)) (0, m)

theorem slot_lt_length (h : (m.segments.bounds seg).contains a = true) :
    m.segments.slot seg a < m.image.length seg * blockWords := by
  rw [m.fits seg]
  exact Segments.slot_lt h

theorem wordAt?_congr (ha : (m.segments.bounds seg).contains a = true)
    (hb : (m.segments.bounds seg).contains b = true) (h : wordBase a = wordBase b) :
    m.wordAt? seg a = m.wordAt? seg b := by
  rw [wordAt?, wordAt?, show m.segments.slot seg a = m.segments.slot seg b from
    (Segments.slot_inj ha hb).mpr h]

theorem wordAt_congr (ha : (m.segments.bounds seg).contains a = true)
    (hb : (m.segments.bounds seg).contains b = true) (h : wordBase a = wordBase b) :
    m.wordAt seg a = m.wordAt seg b := congrArg (·.getD 0) (wordAt?_congr ha hb h)

theorem wordAt?_putWord_iff (hd : m.decoder.Faithful)
    (ha : (m.segments.bounds seg).contains a = true) (w : UInt32)
    (hb : (m.segments.bounds other).contains b = true) :
    (m.putWord seg a w).wordAt? other b =
      if seg = other ∧ wordBase a = wordBase b then some w else m.wordAt? other b := by
  rw [wordAt?_putWord hd (slot_lt_length ha)]
  by_cases hs : seg = other
  · subst hs
    simp only [true_and, show m.segments.slot seg a = m.segments.slot seg b ↔ _ from
      Segments.slot_inj ha hb]
  · simp only [hs, false_and, if_false]

theorem wordAt_putWord (hd : m.decoder.Faithful)
    (ha : (m.segments.bounds seg).contains a = true) (w : UInt32)
    (hb : (m.segments.bounds other).contains b = true) :
    (m.putWord seg a w).wordAt other b =
      if seg = other ∧ wordBase a = wordBase b then w else m.wordAt other b := by
  have h := congrArg (·.getD 0) (wordAt?_putWord_iff hd ha w hb)
  simp only [apply_ite (fun o : Option UInt32 => o.getD 0), Option.getD_some] at h
  exact h

theorem last_toNat {length : Nat} (hl : 0 < length) (hw : a.toNat + length ≤ 0x100000000) :
    (a + UInt32.ofNat (length - 1)).toNat = a.toNat + (length - 1) :=
  toNat_add_ofNat (by omega)

theorem parts_of_one_word {length : Nat} (h : a.toNat % 4 + length ≤ 4) :
    parts a length = [⟨a, 0, length⟩] := by
  have hf : min (4 - a.toNat % 4) length = length := by omega
  simp only [parts, hf, Nat.lt_irrefl, if_false]

theorem parts_of_two_words {length : Nat} (h : 4 < a.toNat % 4 + length) :
    parts a length = [⟨a, 0, 4 - a.toNat % 4⟩,
      ⟨a + UInt32.ofNat (4 - a.toNat % 4), 4 - a.toNat % 4, length - (4 - a.toNat % 4)⟩] := by
  have hf : min (4 - a.toNat % 4) length = 4 - a.toNat % 4 := by omega
  simp only [parts, hf]
  rw [if_pos (by omega)]

theorem byteAt_writePart (hd : m.decoder.Faithful) {p : Part} (hp : p.offset + p.count ≤ 4)
    (hdone : p.done < 4) (hc : (m.segments.bounds seg).contains p.address = true) (v : UInt32)
    (hb : (m.segments.bounds other).contains b = true) :
    (m.writePart seg v p).byteAt other b =
      if seg = other ∧ p.address.toNat ≤ b.toNat ∧ b.toNat < p.address.toNat + p.count
      then Word.byte v (b.toNat - p.address.toNat + p.done) else m.byteAt other b := by
  have hbase : (m.segments.bounds seg).contains (wordBase p.address) = true :=
    (Segments.contains_congr (l := m.layout) (wordBase_wordBase p.address) seg).trans hc
  have ho : p.offset < 4 := Nat.mod_lt _ (by decide)
  have ht : b.toNat % 4 < 4 := Nat.mod_lt _ (by decide)
  rw [byteAt, byteAt, writePart, wordAt_putWord hd hbase _ hb, wordBase_wordBase]
  by_cases hw : seg = other ∧ wordBase p.address = wordBase b
  · obtain ⟨rfl, hw⟩ := hw
    rw [if_pos ⟨rfl, hw⟩, Word.byte_insert _ _ ho _ ht, wordAt_congr hc hb hw]
    have hn := Segments.wordBase_eq_iff.mp hw
    have hin : p.offset ≤ b.toNat % 4 ∧ b.toNat % 4 < p.offset + p.count ↔
        p.address.toNat ≤ b.toNat ∧ b.toNat < p.address.toNat + p.count := by
      simp only [Part.offset]
      omega
    by_cases h : p.address.toNat ≤ b.toNat ∧ b.toNat < p.address.toNat + p.count
    · rw [if_pos (hin.mpr h), if_pos ⟨rfl, h⟩, Word.byte_down _ hdone]
      congr 2
      simp only [Part.offset]
      omega
    · rw [if_neg (fun hi => h (hin.mp hi)), if_neg (fun hi => h hi.2)]
  · rw [if_neg hw, if_neg]
    rintro ⟨rfl, h⟩
    refine hw ⟨rfl, Segments.wordBase_eq_iff.mpr ?_⟩
    simp only [Part.offset] at hp
    omega

theorem second_toNat {length : Nat} (h : 4 < a.toNat % 4 + length)
    (hw : a.toNat + length ≤ 0x100000000) :
    (a + UInt32.ofNat (4 - a.toNat % 4)).toNat = a.toNat + (4 - a.toNat % 4) :=
  toNat_add_ofNat (by omega)

theorem contains_second {length : Nat} (h : 4 < a.toNat % 4 + length) (hl4 : length ≤ 4)
    (hw : a.toNat + length ≤ 0x100000000)
    (hz : (m.segments.bounds seg).contains (a + UInt32.ofNat (length - 1)) = true) :
    (m.segments.bounds seg).contains (a + UInt32.ofNat (4 - a.toNat % 4)) = true := by
  refine (Segments.contains_congr (l := m.layout) (Segments.wordBase_eq_iff.mpr ?_) seg).trans hz
  rw [second_toNat h hw, last_toNat (by omega) hw]
  omega

theorem byteAt_replace (hd : m.decoder.Faithful) {length : Nat}
    (hl4 : length ≤ 4) (hw : a.toNat + length ≤ 0x100000000)
    (ha : (m.segments.bounds seg).contains a = true)
    (hz : (m.segments.bounds seg).contains (a + UInt32.ofNat (length - 1)) = true)
    (v : UInt32) (hb : (m.segments.bounds other).contains b = true) :
    (m.replace seg a v length).2.byteAt other b =
      if seg = other ∧ a.toNat ≤ b.toNat ∧ b.toNat < a.toNat + length
      then Word.byte v (b.toNat - a.toNat) else m.byteAt other b := by
  by_cases h : a.toNat % 4 + length ≤ 4
  · rw [replace, parts_of_one_word h, List.foldl_cons, List.foldl_nil]
    exact byteAt_writePart hd (p := ⟨a, 0, length⟩) h (Nat.zero_lt_succ 3) ha v hb
  · have h2 := second_toNat (by omega) hw
    rw [replace, parts_of_two_words (by omega), List.foldl_cons, List.foldl_cons, List.foldl_nil]
    have h1 := byteAt_writePart hd (p := ⟨a, 0, 4 - a.toNat % 4⟩)
      (by simp only [Part.offset]; omega) (Nat.zero_lt_succ 3) ha v hb
    dsimp only at h1 ⊢
    generalize hm : m.writePart seg v ⟨a, 0, 4 - a.toNat % 4⟩ = n at h1 ⊢
    have hdn : n.decoder.Faithful := hm ▸ hd
    have hsn : n.segments = m.segments := hm ▸ rfl
    have hcz := contains_second (by omega) hl4 hw hz
    rw [byteAt_writePart hdn (by simp only [Part.offset, h2]; omega) (by dsimp only; omega)
      (hsn ▸ hcz) v (hsn ▸ hb), h1]
    dsimp only
    rw [h2]
    by_cases hs : seg = other
    · simp only [hs, true_and]
      by_cases hlow : a.toNat ≤ b.toNat ∧ b.toNat < a.toNat + (4 - a.toNat % 4)
      · rw [if_neg (by omega), if_pos hlow, if_pos (by omega), Nat.add_zero]
      · rw [if_neg hlow]
        by_cases hhigh : a.toNat + (4 - a.toNat % 4) ≤ b.toNat ∧
            b.toNat < a.toNat + (4 - a.toNat % 4) + (length - (4 - a.toNat % 4))
        · rw [if_pos hhigh, if_pos (by omega)]
          congr 1
          omega
        · rw [if_neg hhigh, if_neg (by omega)]
    · simp only [hs, false_and, if_false]

theorem byteAt_add (haligned : a.toNat % 4 = 0)
    (ha : (m.segments.bounds seg).contains a = true) {j : Nat} (hj : j < 4) :
    m.byteAt seg (a + UInt32.ofNat j) = Word.byte (m.wordAt seg a) j := by
  have hlt := a.toNat_lt
  have hn : (a + UInt32.ofNat j).toNat = a.toNat + j := toNat_add_ofNat (by omega)
  have hword : wordBase a = wordBase (a + UInt32.ofNat j) := by
    rw [Segments.wordBase_eq_iff, hn]
    omega
  rw [byteAt, hn, show (a.toNat + j) % 4 = j by omega,
    ← wordAt_congr ha ((Segments.contains_congr (l := m.layout) hword seg).symm.trans ha) hword]

theorem byte_loadPart {p : Part} (hp : p.offset + p.count ≤ 4) (hdone : p.done < 4)
    (hw : p.address.toNat + p.count ≤ 0x100000000)
    (hc : (m.segments.bounds seg).contains p.address = true) {j : Nat} (hj : j < 4) :
    Word.byte (m.loadPart seg p) j =
      if p.done ≤ j ∧ j < p.done + p.count
      then m.byteAt seg (p.address + UInt32.ofNat (j - p.done)) else 0 := by
  have ho : p.offset < 4 := Nat.mod_lt _ (by decide)
  rw [loadPart, Word.byte_up _ hdone hj]
  by_cases h : p.done ≤ j ∧ j < p.done + p.count
  · have hn : (p.address + UInt32.ofNat (j - p.done)).toNat = p.address.toNat + (j - p.done) :=
      toNat_add_ofNat (by omega)
    have hword : wordBase p.address = wordBase (p.address + UInt32.ofNat (j - p.done)) := by
      rw [Segments.wordBase_eq_iff, hn]
      simp only [Part.offset] at hp
      omega
    rw [if_pos h.1, Word.byte_extract _ ho (by omega), if_pos (by omega), if_pos h, byteAt,
      ← wordAt_congr hc ((Segments.contains_congr (l := m.layout) hword seg).symm.trans hc) hword,
      hn]
    congr 1
    simp only [Part.offset] at hp ⊢
    omega
  · rw [if_neg h]
    split
    · rw [Word.byte_extract _ ho (by omega), if_neg (by omega)]
    · rfl

theorem byte_load {length : Nat} (hl4 : length ≤ 4) (hw : a.toNat + length ≤ 0x100000000)
    (ha : (m.segments.bounds seg).contains a = true)
    (hz : (m.segments.bounds seg).contains (a + UInt32.ofNat (length - 1)) = true)
    {j : Nat} (hj : j < 4) : Word.byte (m.load seg a length) j =
      if j < length then m.byteAt seg (a + UInt32.ofNat j) else 0 := by
  have hzero : Word.byte 0 j = 0 := by
    rw [← UInt8.toNat_inj, Word.byte_toNat]
    simp
  by_cases h : a.toNat % 4 + length ≤ 4
  · rw [load, parts_of_one_word h, List.foldl_cons, List.foldl_nil, Word.byte_or, hzero,
      byte_loadPart (p := ⟨a, 0, length⟩) h (Nat.zero_lt_succ 3) hw ha hj]
    simp
  · have h2 := second_toNat (by omega) hw
    have h1 := byte_loadPart (p := ⟨a, 0, 4 - a.toNat % 4⟩) (by simp only [Part.offset]; omega)
      (Nat.zero_lt_succ 3) (by dsimp only; omega) ha hj
    have h2' := byte_loadPart (p := ⟨a + UInt32.ofNat (4 - a.toNat % 4), 4 - a.toNat % 4,
      length - (4 - a.toNat % 4)⟩) (by simp only [Part.offset, h2]; omega) (by dsimp only; omega)
      (by dsimp only; omega) (contains_second (by omega) hl4 hw hz) hj
    rw [load, parts_of_two_words (by omega), List.foldl_cons, List.foldl_cons, List.foldl_nil,
      Word.byte_or, Word.byte_or, hzero, h1, h2']
    dsimp only
    by_cases hlow : j < 4 - a.toNat % 4
    · rw [if_pos (by omega), if_neg (by omega), if_pos (by omega)]
      simp
    · rw [if_neg (by omega)]
      by_cases hhigh : j < length
      · have hadd : a + UInt32.ofNat (4 - a.toNat % 4) + UInt32.ofNat (j - (4 - a.toNat % 4)) =
            a + UInt32.ofNat j := by
          rw [UInt32.add_assoc, ← UInt32.ofNat_add]
          congr 2
          omega
        rw [if_pos (by omega), if_pos hhigh, hadd]
        simp
      · rw [if_neg (by omega), if_neg hhigh]
        simp

theorem replace_fst (hd : m.decoder.Faithful) {length : Nat} (hl4 : length ≤ 4)
    (hw : a.toNat + length ≤ 0x100000000) (ha : (m.segments.bounds seg).contains a = true)
    (hz : (m.segments.bounds seg).contains (a + UInt32.ofNat (length - 1)) = true) (v : UInt32) :
    (m.replace seg a v length).1 = m.load seg a length := by
  by_cases h : a.toNat % 4 + length ≤ 4
  · rw [replace, load, parts_of_one_word h]
    rfl
  · have h2 := second_toNat (by omega) hw
    have hcz := contains_second (by omega) hl4 hw hz
    have hne : wordBase a ≠ wordBase (a + UInt32.ofNat (4 - a.toNat % 4)) := by
      rw [Ne, Segments.wordBase_eq_iff, h2]
      omega
    have hbase : (m.segments.bounds seg).contains (wordBase a) = true :=
      (Segments.contains_congr (l := m.layout) (wordBase_wordBase a) seg).trans ha
    -- the second part is read after the first one was written, in another word
    have hkeep : (m.writePart seg v ⟨a, 0, 4 - a.toNat % 4⟩).wordAt seg
        (a + UInt32.ofNat (4 - a.toNat % 4)) =
          m.wordAt seg (a + UInt32.ofNat (4 - a.toNat % 4)) := by
      rw [writePart, wordAt_putWord hd hbase _ hcz, wordBase_wordBase, if_neg fun hn => hne hn.2]
    rw [replace, load, parts_of_two_words (by omega)]
    simp only [List.foldl_cons, List.foldl_nil]
    rw [loadPart, loadPart, loadPart, hkeep]

theorem storeParts_of_lt {ps : List Part} (h : ∀ p ∈ ps,
    m.segments.slot seg p.address < m.image.length seg * blockWords) (v old : UInt32) :
    m.storeParts seg v old ps =
      let (old, m) := ps.foldl
        (fun (old, m) p => (old ||| m.loadPart seg p, m.writePart seg v p)) (old, m)
      .quiet (.ok old) m := by
  induction ps generalizing m old with
  | nil => rfl
  | cons p ps ih =>
    rw [storeParts, if_pos (h p List.mem_cons_self), List.foldl_cons]
    apply ih
    intro q hq
    rw [show (m.writePart seg v p).image.length seg = m.image.length seg from
      Image.length_write _ _ _ _ _ _ _]
    exact h q (List.mem_cons_of_mem _ hq)

theorem storeParts_eq {length : Nat} (hl4 : length ≤ 4) (hw : a.toNat + length ≤ 0x100000000)
    (ha : (m.segments.bounds seg).contains a = true)
    (hz : (m.segments.bounds seg).contains (a + UInt32.ofNat (length - 1)) = true)
    (v : UInt32) : m.storeParts seg v 0 (parts a length) =
      .quiet (.ok (m.replace seg a v length).1) (m.replace seg a v length).2 := by
  apply storeParts_of_lt
  by_cases h : a.toNat % 4 + length ≤ 4
  · rw [parts_of_one_word h]
    simp only [List.mem_singleton]
    rintro p rfl
    exact slot_lt_length ha
  · rw [parts_of_two_words (by omega)]
    simp only [List.mem_cons, List.not_mem_nil, or_false]
    rintro p (rfl | rfl)
    · exact slot_lt_length ha
    · exact slot_lt_length (contains_second (by omega) hl4 hw hz)

/-- The segment that serves an access, whatever its direction. -/
def locate (m : Memory) (access : Access) (a : UInt32) (length : Nat) :
    Except AddressFault Segment :=
  if length ≠ 1 ∧ length ≠ 2 ∧ length ≠ 4 then .error ⟨access, .misaligned, a⟩
  else if 0x100000000 < a.toNat + length then .error ⟨access, .outOfRange, a⟩
  else match m.segments.owner? a with
    | none => .error ⟨access, .outOfRange, a⟩
    | some .text =>
      if !m.selfModifying then .error ⟨access, .textForbidden, a⟩
      else if 4 < a.toNat % 4 + length then .error ⟨access, .misaligned, a⟩
      else .ok .text
    | some seg =>
      if m.segments.owner? (a + UInt32.ofNat (length - 1)) = some seg then .ok seg
      else .error ⟨access, .outOfRange, a⟩

theorem storeTarget_eq_locate (m : Memory) (a : UInt32) (length : Nat) :
    m.storeTarget a length = m.locate .write a length := by
  unfold storeTarget locate
  cases m.segments.owner? a with
  | none => rfl
  | some seg => cases seg <;> rfl

theorem loadSource_eq_locate (m : Memory) (a : UInt32) (length : Nat) :
    m.loadSource a length = m.locate .read a length := by
  unfold loadSource locate
  cases m.segments.owner? a with
  | none => rfl
  | some seg => cases seg <;> rfl

theorem store_eq (m : Memory) (a v : UInt32) (length : Nat) :
    m.store a v length =
      .guarded (m.locate .write a length) m fun seg => m.storeParts seg v 0 (parts a length) := by
  rw [store, storeTarget_eq_locate]

theorem fetch_eq (m : Memory) (a : UInt32) (length : Nat) :
    m.fetch a length = (m.locate .read a length).map fun seg => m.load seg a length := by
  rw [fetch, loadSource_eq_locate]

private theorem locate_text {access : Access} {length : Nat}
    (hl : length = 1 ∨ length = 2 ∨ length = 4) (hw : a.toNat + length ≤ 0x100000000)
    (ho : m.segments.owner? a = some .text) :
    ((if !m.selfModifying then .error ⟨access, .textForbidden, a⟩
      else if 4 < a.toNat % 4 + length then .error ⟨access, .misaligned, a⟩
      else .ok .text : Except AddressFault Segment) = .ok seg) ↔
      some Segment.text = some seg ∧
        m.segments.owner? (a + UInt32.ofNat (length - 1)) = some seg ∧
        (seg = .text → m.selfModifying = true ∧ a.toNat % 4 + length ≤ 4) := by
  have hlast := last_toNat (a := a) (by omega) hw
  constructor
  · intro h
    split at h
    · exact nomatch h
    rename_i hs
    split at h
    · exact nomatch h
    rename_i hc
    obtain rfl := Except.ok.inj h
    refine ⟨rfl, ?_, fun _ => ⟨by simpa using hs, by omega⟩⟩
    rw [← ho]
    exact Segments.owner?_congr (Segments.wordBase_eq_iff.mpr (by omega))
  · rintro ⟨h, -, ht⟩
    obtain rfl := Option.some.inj h
    obtain ⟨hs, hc⟩ := ht rfl
    rw [hs, if_neg (by decide), if_neg (by omega)]

private theorem locate_other {access : Access} {length : Nat} {s : Segment} (hs : s ≠ .text) :
    ((if m.segments.owner? (a + UInt32.ofNat (length - 1)) = some s then .ok s
      else .error ⟨access, .outOfRange, a⟩ : Except AddressFault Segment) = .ok seg) ↔
      some s = some seg ∧
        m.segments.owner? (a + UInt32.ofNat (length - 1)) = some seg ∧
        (seg = .text → m.selfModifying = true ∧ a.toNat % 4 + length ≤ 4) := by
  constructor
  · intro h
    split at h
    · rename_i ho
      obtain rfl := Except.ok.inj h
      exact ⟨rfl, ho, fun ht => absurd ht hs⟩
    · exact nomatch h
  · rintro ⟨h, ho, -⟩
    obtain rfl := Option.some.inj h
    rw [if_pos ho]

/-- An access succeeds when one segment owns its first and its last byte and, if that is the
text segment, programs may access it and the access stays in one word. -/
theorem locate_eq_ok_iff {access : Access} {length : Nat} :
    m.locate access a length = .ok seg ↔
      (length = 1 ∨ length = 2 ∨ length = 4) ∧ a.toNat + length ≤ 0x100000000 ∧
        m.segments.owner? a = some seg ∧
        m.segments.owner? (a + UInt32.ofNat (length - 1)) = some seg ∧
        (seg = .text → m.selfModifying = true ∧ a.toNat % 4 + length ≤ 4) := by
  unfold locate
  by_cases hl : length = 1 ∨ length = 2 ∨ length = 4
  · rw [if_neg (by omega)]
    by_cases hw : a.toNat + length ≤ 0x100000000
    · rw [if_neg (by omega)]
      simp only [hl, hw, true_and]
      cases ho : m.segments.owner? a with
      | none => exact ⟨nofun, nofun⟩
      | some s =>
        cases s with
        | text => exact locate_text hl hw ho
        | data | stack | mmio => exact locate_other (by decide)
    · rw [if_pos (by omega)]
      exact ⟨nofun, fun h => absurd h.2.1 hw⟩
  · rw [if_pos (by omega)]
    exact ⟨nofun, fun h => absurd h.1 hl⟩

theorem ne_text_of_locate {access : Access} {length : Nat} (hoff : m.selfModifying = false)
    (h : m.locate access a length = .ok seg) : seg ≠ .text := by
  rintro rfl
  obtain ⟨-, -, -, -, hallowed⟩ := locate_eq_ok_iff.mp h
  exact nomatch hoff.symm.trans (hallowed rfl).1

theorem locate_isOk_of_access (m : Memory) (access : Access) (a : UInt32) (length : Nat)
    (seg : Segment) : m.locate access a length = .ok seg ↔ m.locate .read a length = .ok seg := by
  rw [locate_eq_ok_iff, locate_eq_ok_iff]

end ArchState.Memory
