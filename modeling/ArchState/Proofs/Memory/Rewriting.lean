import ArchState.Proofs.Memory.Decoding
import ArchState.Proofs.Memory.Marks
import ArchState.Proofs.Memory.Protection

/-! # Words written anew

An undo record holds the bytes that a store has replaced as a number. A store and the store of what
it has answered write each word that they touch once, with the word that it showed before. This is
more than nothing: a null word has been written, and in text the decoder has made a statement in
place of the one that was there.
-/
namespace ArchState

open Memory (StoreRequest)

namespace BlockTable
variable {α : Type}

theorem blockPut_blockPut (b : Option (Block α)) (i : Nat) (x y : Option α) :
    blockPut (some (blockPut b i x)) i y = blockPut b i y := by
  simp only [blockPut, Option.getD_some, Vector.set_set]

theorem blockPut_comm (b : Option (Block α)) {i j : Nat} (h : i % blockWords ≠ j % blockWords)
    (x y : Option α) :
    blockPut (some (blockPut b i x)) j y = blockPut (some (blockPut b j y)) i x := by
  simp only [blockPut, Option.getD_some]
  exact Vector.set_comm _ _ h

/-- What is put last into a slot is what counts. -/
theorem put_put (t : BlockTable α) (i : Nat) (x y : Option α) :
    (t.put i x).put i y = t.put i y := by
  simp only [put, mk.injEq]
  apply Array.ext_getElem?
  intro k
  by_cases hk : i / blockWords = k
  · simp [Array.getElem?_modify, hk, Function.comp_def, blockPut_blockPut]
  · simp [Array.getElem?_modify, hk]

theorem put_comm (t : BlockTable α) {i j : Nat} (h : i ≠ j) (x y : Option α) :
    (t.put i x).put j y = (t.put j y).put i x := by
  simp only [put, mk.injEq]
  apply Array.ext_getElem?
  intro k
  by_cases hi : i / blockWords = k
  · by_cases hj : j / blockWords = k
    · have hmod : i % blockWords ≠ j % blockWords := by
        intro hmod
        apply h
        rw [← Nat.div_add_mod i blockWords, hi, hmod, ← hj, Nat.div_add_mod]
      simp [Array.getElem?_modify, hi, hj, Function.comp_def, blockPut_comm _ hmod]
    · simp [Array.getElem?_modify, hi, hj]
  · simp [Array.getElem?_modify, hi]

end BlockTable

namespace Image

theorem write_write (decode : Decoder) (im : Image) (seg : Segment) (i : Nat) (a v w : UInt32) :
    (im.write decode seg i a v).write decode seg i a w = im.write decode seg i a w := by
  cases seg <;> simp only [write, BlockTable.put_put]

theorem write_comm (decode : Decoder) (im : Image) {seg other : Segment} {i j : Nat}
    (h : ¬ (seg = other ∧ i = j)) (a v b w : UInt32) :
    (im.write decode seg i a v).write decode other j b w =
      (im.write decode other j b w).write decode seg i a v := by
  by_cases hseg : seg = other
  · subst hseg
    have hij : i ≠ j := fun hij => h ⟨rfl, hij⟩
    cases seg <;> simp only [write, BlockTable.put_comm _ hij]
  · cases seg <;> cases other <;> first | exact absurd rfl hseg | rfl

end Image

/-- A word of which some bytes are replaced is as before when they are put back. -/
theorem Word.insert_extract (w v : UInt32) {offset : Nat} (h : offset < 4) (count : Nat) :
    insert (insert w offset count v) offset count (extract w offset count) = w := by
  apply ext_byte
  intro j hj
  rw [byte_insert _ _ h _ hj, byte_insert _ _ h _ hj]
  by_cases hin : offset ≤ j ∧ j < offset + count
  · rw [if_pos hin, byte_extract w h (by omega), if_pos (by omega), Nat.add_sub_cancel' hin.1]
  · rw [if_neg hin, if_neg hin]

namespace Memory
variable {m n k : Memory} {seg other : Segment} {a b v w : UInt32} {length : Nat}

theorem withImage_congr (m : Memory) {image other : Image} (h : image = other)
    (fits : image.Fits (Segments.ofLayout m.layout))
    (fits' : other.Fits (Segments.ofLayout m.layout)) :
    m.withImage image fits = m.withImage other fits' := by
  subst h
  rfl

/-- What is written last into a word is what counts. -/
theorem putWord_putWord (m : Memory) (seg : Segment) (a v w : UInt32) :
    (m.putWord seg a v).putWord seg a w = m.putWord seg a w :=
  m.withImage_congr (Image.write_write m.decoder m.image seg _ a v w) _ (m.putWord seg a w).fits

theorem putWord_comm (ha : (m.segments.bounds seg).contains a = true)
    (hb : (m.segments.bounds other).contains b = true) (h : wordBase a ≠ wordBase b)
    (v w : UInt32) :
    (m.putWord seg a v).putWord other b w = (m.putWord other b w).putWord seg a v := by
  have hslot : ¬ (seg = other ∧ m.segments.slot seg a = m.segments.slot other b) := by
    rintro ⟨rfl, hs⟩
    exact h ((Segments.slot_inj ha hb).mp hs)
  exact m.withImage_congr (Image.write_comm m.decoder m.image hslot a v b w) _
    ((m.putWord other b w).putWord seg a v).fits

theorem wordAt?_putWord_of_ne_text (hseg : seg ≠ .text)
    (ha : (m.segments.bounds seg).contains a = true)
    (hb : (m.segments.bounds other).contains b = true) (w : UInt32) :
    (m.putWord seg a w).wordAt? other b =
      if seg = other ∧ wordBase a = wordBase b then some w else m.wordAt? other b := by
  -- outside text the decoder has no part in it
  have h := wordAt?_putWord_iff (m := m.decodedBy .binary) Decoder.faithful_binary ha w hb
  rw [putWord_decodedBy hseg] at h
  exact h

theorem rawWord?_map (hlayout : n.layout = m.layout) (f : Option UInt32 → Option UInt32)
    (h : ∀ seg, b.toNat % 4 = 0 → m.segments.owner? b = some seg →
      n.wordAt? seg b = f (m.wordAt? seg b)) : n.rawWord? b = (m.rawWord? b).map f := by
  have hsegments : n.segments = m.segments := congrArg Segments.ofLayout hlayout
  rw [rawWord?, rawWord?, checkAligned, hsegments]
  by_cases haligned : b.toNat % 4 = 0
  · rw [if_pos haligned]
    cases howner : m.segments.owner? b with
    | none => rfl
    | some seg => exact congrArg Except.ok (h seg haligned howner)
  · rw [if_neg haligned]
    rfl

theorem rawWord?_congr (hlayout : n.layout = m.layout)
    (h : ∀ seg, m.segments.owner? b = some seg → n.wordAt? seg b = m.wordAt? seg b) :
    n.rawWord? b = m.rawWord? b := by
  have hmap := rawWord?_map hlayout (fun content => content) fun seg _ howner => h seg howner
  exact hmap.trans (congrFun Except.map_id _)

theorem fetchStatement_map (hlayout : n.layout = m.layout)
    (f : Option Statement → Option Statement)
    (h : b.toNat % 4 = 0 → m.inSegment .text b = true → n.statementAt? b = f (m.statementAt? b)) :
    n.fetchStatement b = (m.fetchStatement b).map f := by
  have hcheck : n.checkText .read b = m.checkText .read b := by
    rw [checkText, checkText, segments, segments, hlayout]
  rw [fetchStatement, fetchStatement, hcheck]
  cases hm : m.checkText .read b with
  | error fault => rfl
  | ok _ =>
    obtain ⟨haligned, hin⟩ := (checkText_eq_ok_iff .read).mp hm
    exact congrArg Except.ok (h haligned hin)

theorem statementAt?_putWord_text (ha : m.inSegment .text a = true)
    (hb : m.inSegment .text b = true) (w : UInt32) :
    (m.putWord .text a w).statementAt? b =
      if wordBase a = wordBase b then some (m.decoder w a) else m.statementAt? b := by
  have hslot : m.segments.slot .text a = m.segments.slot .text b ↔ wordBase a = wordBase b :=
    Segments.slot_inj ha hb
  have hlt : m.segments.slot .text a < m.image.text.capacity := slot_lt_length ha
  have hput := BlockTable.slot_put m.image.text hlt (some (m.decoder w a))
    (m.segments.slot .text b)
  rw [statementAt?, statementAt?, ← if_congr hslot rfl rfl]
  exact hput

/-- Whether `w` is the encoding of the statement at `b` with the bytes of one of some writes in
their places. -/
def Merges (m : Memory) (writes : List StoreRequest) (b w : UInt32) : Prop :=
  ∃ x ∈ writes, x.touches b ∧ w = m.merged x.address x.value x.length

/-- How `n` reads if the words of `m` that are `touched` have been written anew. Outside text a word
is the one that was there, or zero if it was null. In text it is the statement that the decoder
makes of a word. Which word it is given at an address is what `given` tells, and `kept` tells when
that word is the encoding of the statement before. -/
structure Renewed (m n : Memory) (touched : UInt32 → Prop) (kept : Prop)
    (given : UInt32 → UInt32 → Prop) : Prop where
  frame : ∃ image fits, n = m.withImage image fits
  elsewhere : ∀ b, ¬ touched b →
    n.rawWord? b = m.rawWord? b ∧ n.fetchStatement b = m.fetchStatement b
  words : ∀ b, touched b → m.segments.owner? b ≠ some .text →
    n.rawWord? b = (m.rawWord? b).map (fun content => some (content.getD 0)) ∧
      n.fetchStatement b = m.fetchStatement b
  text : ∀ b, touched b → m.segments.owner? b = some .text → ∃ w, given b w ∧
    (kept → ∀ st, m.fetchStatement b = .ok st → w = (st.map Statement.binary).getD 0) ∧
      n.rawWord? b = (m.rawWord? b).map (fun _ => some (m.decoder w b).binary) ∧
      n.fetchStatement b = (m.fetchStatement b).map fun _ => some (m.decoder w b)

theorem renewed_putWord (haligned : a.toNat % 4 = 0) (howner : m.segments.owner? a = some seg)
    {p : Prop} (hw : seg ≠ .text ∨ p → w = m.wordAt seg a) :
    Renewed m (m.putWord seg a w) (fun b => wordBase a = wordBase b) p
      fun _ w' => seg = .text ∧ w' = w := by
  have hlayout : (m.putWord seg a w).layout = m.layout := rfl
  have ha : (m.segments.bounds seg).contains a = true := Segments.contains_of_owner? howner
  have hsame : ∀ {b}, wordBase a = wordBase b → m.segments.owner? b = some seg :=
    fun hb => (Segments.owner?_congr hb.symm).trans howner
  -- an aligned address in the word is the address of the word
  have hself : ∀ {b : UInt32}, b.toNat % 4 = 0 → wordBase a = wordBase b → b = a := by
    intro b hbase hword
    rw [wordBase_of_aligned haligned, wordBase_of_aligned hbase] at hword
    exact hword.symm
  have htext : seg ≠ .text → ∀ b, (m.putWord seg a w).fetchStatement b = m.fetchStatement b :=
    fun hseg => fetchStatement_congr rfl (text_putWord hseg a w)
  refine ⟨⟨_, (m.putWord seg a w).fits, rfl⟩, ?_, ?_, ?_⟩
  · intro b hb
    refine ⟨rawWord?_congr hlayout fun other hother => ?_, ?_⟩
    · exact (marks_putWord ha (Segments.contains_of_owner? hother) w).kept fun h => hb h.2
    · by_cases hseg : seg = .text
      · subst hseg
        have hkept := fetchStatement_map (b := b) hlayout (fun st => st) fun _ hin => by
          rw [statementAt?_putWord_text ha hin, if_neg hb]
        exact hkept.trans (congrFun Except.map_id _)
      · exact htext hseg b
  · intro b hb hne
    have hseg : seg ≠ .text := fun hseg => hne (hseg ▸ hsame hb)
    refine ⟨rawWord?_map hlayout _ ?_, htext hseg b⟩
    intro other hbase hother
    obtain rfl : seg = other := Option.some.inj ((hsame hb).symm.trans hother)
    obtain rfl := hself hbase hb
    rw [wordAt?_putWord_of_ne_text hseg ha ha, if_pos ⟨rfl, rfl⟩, hw (.inl hseg)]
    rfl
  · intro b hb hb'
    obtain rfl : seg = .text := Option.some.inj ((hsame hb).symm.trans hb')
    have hput : b.toNat % 4 = 0 → m.inSegment .text b = true →
        (m.putWord .text a w).statementAt? b = some (m.decoder w b) := by
      intro hbase hin
      obtain rfl := hself hbase hb
      rw [statementAt?_putWord_text ha ha, if_pos rfl]
    refine ⟨w, ⟨rfl, rfl⟩, ?_, rawWord?_map hlayout _ ?_, fetchStatement_map hlayout _ hput⟩
    · intro hp st hst
      obtain ⟨_, hcheck, rfl⟩ := exists_of_map_eq_ok hst
      obtain rfl := hself ((checkText_eq_ok_iff .read).mp hcheck).1 hb
      exact hw (.inr hp)
    · intro other hbase hother
      obtain rfl : .text = other := Option.some.inj ((hsame hb).symm.trans hother)
      exact congrArg (Option.map Statement.binary) (hput hbase (Segments.contains_of_owner? hother))

theorem Renewed.congr {P Q : UInt32 → Prop} {p q : Prop} {G H : UInt32 → UInt32 → Prop}
    (h : Renewed m n P p G) (hPQ : ∀ b, Q b ↔ P b) (hpq : q → p)
    (hGH : ∀ b w, Q b → G b w → H b w) : Renewed m n Q q H where
  frame := h.frame
  elsewhere b hb := h.elsewhere b fun hP => hb ((hPQ b).mpr hP)
  words b hb := h.words b ((hPQ b).mp hb)
  text b hb howner := by
    obtain ⟨w, hgiven, hw, hreads⟩ := h.text b ((hPQ b).mp hb) howner
    exact ⟨w, hGH b w hb hgiven, fun hq => hw (hpq hq), hreads⟩

theorem Renewed.trans {P Q : UInt32 → Prop} {p : Prop} {G : UInt32 → UInt32 → Prop}
    (h₁ : Renewed m k P p G) (h₂ : Renewed k n Q p G) (hdisjoint : ∀ b, P b → ¬ Q b) :
    Renewed m n (fun b => P b ∨ Q b) p G := by
  obtain ⟨⟨image, fits, rfl⟩, helsewhere, hwords, htext⟩ := h₁
  obtain ⟨⟨image', fits', rfl⟩, helsewhere', hwords', htext'⟩ := h₂
  refine ⟨⟨image', fits', rfl⟩, ?_, ?_, ?_⟩
  · intro b hb
    obtain ⟨hraw, hst⟩ := helsewhere b fun h => hb (.inl h)
    obtain ⟨hraw', hst'⟩ := helsewhere' b fun h => hb (.inr h)
    exact ⟨hraw'.trans hraw, hst'.trans hst⟩
  · rintro b (hb | hb) howner
    · obtain ⟨hraw, hst⟩ := hwords b hb howner
      obtain ⟨hraw', hst'⟩ := helsewhere' b (hdisjoint b hb)
      exact ⟨hraw'.trans hraw, hst'.trans hst⟩
    · obtain ⟨hraw, hst⟩ := helsewhere b fun h => hdisjoint b h hb
      obtain ⟨hraw', hst'⟩ := hwords' b hb howner
      rw [hraw] at hraw'
      exact ⟨hraw', hst'.trans hst⟩
  · rintro b (hb | hb) howner
    · obtain ⟨w, hgiven, hw, hraw, hst⟩ := htext b hb howner
      obtain ⟨hraw', hst'⟩ := helsewhere' b (hdisjoint b hb)
      exact ⟨w, hgiven, hw, hraw'.trans hraw, hst'.trans hst⟩
    · obtain ⟨hraw, hst⟩ := helsewhere b fun h => hdisjoint b h hb
      obtain ⟨w, hgiven, hw, hraw', hst'⟩ := htext' b hb howner
      rw [hraw] at hraw'
      rw [hst] at hw hst'
      exact ⟨w, hgiven, hw, hraw', hst'⟩

theorem set_in_word (h : m.locate .write a length = .ok seg) (hword : a.toNat % 4 + length ≤ 4)
    (v : UInt32) : m.set a v length =
      ⟨.ok (Word.extract (m.wordAt seg a) (a.toNat % 4) length),
        m.putWord seg (wordBase a) (Word.insert (m.wordAt seg a) (a.toNat % 4) length v),
        m.notify .write a length (Word.low v length)⟩ := by
  rw [set_eq_replace h, replace, parts_of_one_word hword, List.foldl_cons, List.foldl_nil]
  change Step.mk (Except.ok (0 ||| m.loadPart seg ⟨a, 0, length⟩))
    (m.writePart seg v ⟨a, 0, length⟩) _ = _
  rw [loadPart, writePart, Part.offset, Word.up_zero, Word.down_zero, UInt32.zero_or]
  rfl

/-- Bytes of a word that were replaced and are put back make the word that was there before. In
text the decoder comes in between, and makes no difference if it keeps encodings or if all bytes
are replaced. -/
theorem insert_back (hbase : (m.segments.bounds seg).contains (wordBase a) = true)
    (ha : (m.segments.bounds seg).contains a = true) (hword : a.toNat % 4 + length ≤ 4)
    (hexact : seg ≠ .text ∨ m.decoder.Faithful ∨ length = 4) (v : UInt32) :
    let merged := Word.insert (m.wordAt seg a) (a.toNat % 4) length v
    Word.insert ((m.putWord seg (wordBase a) merged).wordAt seg a) (a.toNat % 4) length
      (Word.extract (m.wordAt seg a) (a.toNat % 4) length) = m.wordAt seg a := by
  intro merged
  have hback : (m.putWord seg (wordBase a) merged).wordAt seg a = merged → Word.insert
      ((m.putWord seg (wordBase a) merged).wordAt seg a) (a.toNat % 4) length
        (Word.extract (m.wordAt seg a) (a.toNat % 4) length) = m.wordAt seg a := by
    intro hmerged
    rw [hmerged]
    exact Word.insert_extract _ _ (Nat.mod_lt _ (by decide)) _
  rcases hexact with hseg | hd | rfl
  · have hput := wordAt?_putWord_of_ne_text hseg hbase ha merged
    rw [if_pos ⟨rfl, wordBase_wordBase a⟩] at hput
    exact hback (congrArg (·.getD 0) hput)
  · have hput := wordAt_putWord hd hbase merged ha
    rw [if_pos ⟨rfl, wordBase_wordBase a⟩] at hput
    exact hback hput
  · have hzero : a.toNat % 4 = 0 := by omega
    rw [hzero, Word.extract_whole, Word.insert_whole]

/-- A store within a word and a store of what it has answered write the word once, with the bytes
put back into what the first store has left there. -/
theorem set_answer_back (h : m.locate .write a length = .ok seg)
    (hword : a.toNat % 4 + length ≤ 4) {old : UInt32} (hok : (m.set a v length).answer = .ok old) :
    let left := (m.set a v length).state
    let w := Word.insert (left.wordAt seg a) (a.toNat % 4) length old
    (∃ again, left.set a old length =
        ⟨.ok again, m.putWord seg (wordBase a) w, m.notify .write a length (Word.low old length)⟩) ∧
      (seg ≠ .text ∨ m.decoder.Faithful ∨ length = 4 → w = m.wordAt seg (wordBase a)) := by
  intro left w
  have ha := Segments.contains_of_owner? (locate_eq_ok_iff.mp h).2.2.1
  have hbase : (m.segments.bounds seg).contains (wordBase a) = true :=
    (Segments.contains_congr (l := m.layout) (wordBase_wordBase a) seg).trans ha
  have hn : (m.putWord seg (wordBase a)
      (Word.insert (m.wordAt seg a) (a.toNat % 4) length v)).locate .write a length = .ok seg := h
  have hset := set_in_word h hword v
  rw [hset] at hok
  obtain rfl := Except.ok.inj hok
  have hleft : left = m.putWord seg (wordBase a)
      (Word.insert (m.wordAt seg a) (a.toNat % 4) length v) := congrArg Step.state hset
  simp only [w, hleft]
  refine ⟨?_, ?_⟩
  · rw [set_in_word hn hword, putWord_putWord]
    exact ⟨_, rfl⟩
  intro hexact
  rw [wordAt_congr hbase ha (wordBase_wordBase a)]
  exact insert_back hbase ha hword hexact v

theorem touches_iff_wordBase (hlength : 0 < length) (hword : a.toNat % 4 + length ≤ 4)
    (v b : UInt32) : StoreRequest.touches ⟨a, v, length⟩ b ↔ wordBase a = wordBase b := by
  rw [Segments.wordBase_eq_iff]
  constructor
  · rintro ⟨i, hi, hplace⟩
    change i < length at hi
    change (a.toNat + i) / 4 = b.toNat / 4 at hplace
    omega
  · intro hplace
    exact ⟨0, hlength, hplace⟩

theorem touches_writes_iff (haligned : a.toNat % 4 = 0) (hinside : a.toNat + 4 < 0x100000000)
    (d : UInt64) (b : UInt32) : (∃ w ∈ DoubleWord.writes a d, w.touches b) ↔
      wordBase a = wordBase b ∨ wordBase (a + 4) = wordBase b := by
  have hupper := (Memory.upper_aligned haligned hinside).2
  simp only [DoubleWord.writes, List.mem_cons, List.not_mem_nil, or_false, exists_eq_or_imp,
    exists_eq_left]
  rw [touches_iff_wordBase (by decide) (by omega), touches_iff_wordBase (by decide) (by omega)]

theorem merges_of_wordAt (howner : m.segments.owner? a = some .text) (hb : wordBase a = wordBase b)
    (hw : w = Word.insert (m.wordAt .text a) (a.toNat % 4) length v) (hlength : 0 < length)
    (hword : a.toNat % 4 + length ≤ 4) : m.Merges [⟨a, v, length⟩] b w := by
  have ha := Segments.contains_of_owner? howner
  have hbase : (m.segments.bounds .text).contains (wordBase a) = true :=
    (Segments.contains_congr (l := m.layout) (wordBase_wordBase a) .text).trans ha
  refine ⟨_, List.mem_singleton_self _, (touches_iff_wordBase hlength hword v b).mpr hb, ?_⟩
  rw [hw, wordAt_congr ha hbase (wordBase_wordBase a).symm]
  rfl

/-- A word that is written as a whole is merged to what it is given. -/
theorem merges_of_word {writes : List StoreRequest} (hx : ⟨a, v, 4⟩ ∈ writes)
    (haligned : a.toNat % 4 = 0) (hb : wordBase a = wordBase b) : m.Merges writes b v := by
  refine ⟨_, hx, (touches_iff_wordBase (by decide) (by omega) v b).mpr hb, ?_⟩
  rw [merged, haligned, Word.insert_whole]

theorem renewed_word {writes : List StoreRequest} (haligned : a.toNat % 4 = 0)
    (howner : m.segments.owner? a = some seg) {p : Prop} (hw : seg ≠ .text ∨ p → w = m.wordAt seg a)
    (hx : ⟨a, w, 4⟩ ∈ writes) (n : Memory) :
    Renewed m (m.putWord seg a w) (fun b => wordBase a = wordBase b) p (n.Merges writes) := by
  refine (renewed_putWord haligned howner hw).congr (fun _ => Iff.rfl) (fun h => h) ?_
  rintro b w hb ⟨-, rfl⟩
  exact merges_of_word hx haligned hb

/-- A store that sends one record to the log, from which the words that it has touched can be
written anew. The decoder is given what the store has left with the bytes of the record in it. -/
structure Undoable {α : Type} (m : Memory) (s : Step Memory α) (record : UndoRecord)
    (touched : UInt32 → Prop) (kept : Prop) : Prop where
  sent : Signal.recordsTo .log s.signals = [record]
  restored : (s.state.restore record).answer = .ok ()
  renewed : Renewed m (s.state.restore record).state touched kept (s.state.Merges record.writes)

theorem Undoable.congr {α : Type} {s : Step Memory α} {record : UndoRecord}
    {P Q : UInt32 → Prop} {p q : Prop} (h : Undoable m s record P p) (hPQ : ∀ b, Q b ↔ P b)
    (hpq : q → p) : Undoable m s record Q q :=
  ⟨h.sent, h.restored, h.renewed.congr hPQ hpq fun _ _ _ hgiven => hgiven⟩

theorem setAligned_of_ok {record : UInt32 → UInt32 → UndoRecord} {old : UInt32}
    (h : (m.setAligned a v length record).answer = .ok old) :
    a.toNat % length = 0 ∧ (∃ seg, m.locate .write a length = .ok seg) ∧
      (m.set a v length).answer = .ok old ∧ m.setAligned a v length record =
        ⟨.ok old, (m.set a v length).state,
          (m.set a v length).signals ++ Sink.signals m.sink (record a old)⟩ := by
  by_cases haligned : a.toNat % length = 0
  · obtain ⟨image, fits, hframe⟩ := m.set_frame a v length
    have hsink : (m.set a v length).state.sink = m.sink := by
      rw [hframe]
      rfl
    rw [setAligned, checkAligned, if_pos haligned, Step.guarded, Step.thenTry, Step.andThen] at h ⊢
    cases hset : (m.set a v length).answer with
    | error fault =>
      rw [hset] at h
      cases h
    | ok other =>
      rw [hset] at h
      obtain rfl : other = old := Except.ok.inj h
      refine ⟨haligned, ?_, rfl, ?_⟩
      · cases hl : m.locate .write a length with
        | ok seg => exact ⟨seg, rfl⟩
        | error fault =>
          rw [set_of_fault hl] at hset
          cases hset
      · simp only [Step.guarded, hsink]
  · rw [setAligned, checkAligned, if_neg haligned] at h
    cases h

theorem undoable_setAligned (hsink : m.sink = some .log)
    (hlength : length = 1 ∨ length = 2 ∨ length = 4) {record : UInt32 → UInt32 → UndoRecord}
    (hrestore : ∀ n old, a.toNat % length = 0 →
      restore n (record a old) = (n.set a old length).map (·.map fun _ => ()))
    (hwrites : ∀ old, (record a old).writes = [⟨a, old, length⟩])
    {old : UInt32} (hok : (m.setAligned a v length record).answer = .ok old) :
    Undoable m (m.setAligned a v length record) (record a old)
      (StoreRequest.touches ⟨a, v, length⟩) (m.decoder.Faithful ∨ length = 4) := by
  obtain ⟨haligned, ⟨seg, hl⟩, hset, hstep⟩ := setAligned_of_ok hok
  have hword : a.toNat % 4 + length ≤ 4 := by
    rcases hlength with rfl | rfl | rfl <;> omega
  obtain ⟨⟨again, hback⟩, hw⟩ := set_answer_back hl hword hset
  have hrestored := hrestore (m.set a v length).state old haligned
  rw [hback] at hrestored
  rw [hstep]
  refine ⟨?_, ?_, ?_⟩
  · rw [Signal.recordsTo_append, set_in_word hl hword, recordsTo_notify, hsink,
      Sink.recordsTo_signals]
    rfl
  · rw [hrestored]
    rfl
  · have howner : m.segments.owner? (wordBase a) = some seg :=
      (Segments.owner?_congr (wordBase_wordBase a)).trans (locate_eq_ok_iff.mp hl).2.2.1
    have hbase : (wordBase a).toNat % 4 = 0 := by
      rw [wordBase_toNat]
      omega
    rw [hrestored]
    have htouches : ∀ b,
        StoreRequest.touches ⟨a, v, length⟩ b ↔ wordBase (wordBase a) = wordBase b := by
      intro b
      rw [wordBase_wordBase]
      exact touches_iff_wordBase (by omega) hword v b
    refine (renewed_putWord hbase howner hw).congr htouches (fun hexact => hexact) ?_
    rintro b w hb ⟨rfl, rfl⟩
    obtain ⟨image, fits, hframe⟩ := m.set_frame a v length
    rw [hwrites]
    have hb' := (touches_iff_wordBase (by omega) hword v b).mp hb
    refine merges_of_wordAt ?_ hb' rfl (by omega) hword
    rw [hframe]
    exact (locate_eq_ok_iff.mp hl).2.2.1

/-- A store of a double word and a store of what it has answered write both words once. -/
theorem storeDouble_back {low high : Segment} (h : WordPair m a low high) (d : UInt64) :
    let old := DoubleWord.ofWords (m.wordAt low a) (m.wordAt high (a + 4))
    ((m.storeDouble a d).state.storeDouble a old).answer.map (fun _ => ()) = .ok () ∧
      ((m.storeDouble a d).state.storeDouble a old).state =
        (m.putWord low a (m.wordAt low a)).putWord high (a + 4) (m.wordAt high (a + 4)) := by
  intro old
  have hlow := Segments.contains_of_owner? (locate_eq_ok_iff.mp (h.lower .write)).2.2.1
  have hhigh := Segments.contains_of_owner? (locate_eq_ok_iff.mp (h.upper .write)).2.2.1
  have hne : wordBase (a + 4) ≠ wordBase a := by
    rw [ne_eq, Segments.wordBase_eq_iff, (Memory.upper_aligned h.aligned h.inside).1]
    omega
  have hagain : WordPair ((m.putWord low a (DoubleWord.lowWord d)).putWord high (a + 4)
      (DoubleWord.highWord d)) a low high := ⟨h.aligned, h.inside, h.lower, h.upper⟩
  rw [storeDouble_of_pair h, storeDouble_of_pair hagain, DoubleWord.lowWord_ofWords,
    DoubleWord.highWord_ofWords]
  refine ⟨rfl, ?_⟩
  rw [putWord_comm (m := m.putWord low a _) hhigh hlow hne, putWord_putWord, putWord_putWord]

/-- Both words of a pair are written anew with what they show. -/
theorem renewed_pair {low high : Segment} (h : WordPair m a low high) (n : Memory) :
    let old := DoubleWord.ofWords (m.wordAt low a) (m.wordAt high (a + 4))
    Renewed m ((m.putWord low a (m.wordAt low a)).putWord high (a + 4) (m.wordAt high (a + 4)))
      (fun b => wordBase a = wordBase b ∨ wordBase (a + 4) = wordBase b) True
      (n.Merges (DoubleWord.writes a old)) := by
  intro old
  have hlow := (locate_eq_ok_iff.mp (h.lower .write)).2.2.1
  have hhigh := (locate_eq_ok_iff.mp (h.upper .write)).2.2.1
  have hplace : (a + 4).toNat = a.toNat + 4 := (Memory.upper_aligned h.aligned h.inside).1
  have hwrites : DoubleWord.writes a old =
      [⟨a, m.wordAt low a, 4⟩, ⟨a + 4, m.wordAt high (a + 4), 4⟩] := by
    rw [DoubleWord.writes, DoubleWord.lowWord_ofWords, DoubleWord.highWord_ofWords]
  have hkeep := wordAt_putWord_upper (Segments.contains_of_owner? hlow)
    (Segments.contains_of_owner? hhigh) (by omega) (m.wordAt low a)
  have hlower : ⟨a, m.wordAt low a, 4⟩ ∈ DoubleWord.writes a old := by simp [hwrites]
  have hupper : ⟨a + 4, m.wordAt high (a + 4), 4⟩ ∈ DoubleWord.writes a old := by simp [hwrites]
  have hfirst := renewed_word (p := True) h.aligned hlow (fun _ => rfl) hlower n
  have hsecond := renewed_word (m := m.putWord low a (m.wordAt low a)) (p := True)
    h.upper_aligned hhigh (fun _ => hkeep.symm) hupper n
  refine hfirst.trans hsecond fun b hb hb' => ?_
  rw [Segments.wordBase_eq_iff] at hb hb'
  omega

theorem undoable_setDouble (hsink : m.sink = some .log) {d old : UInt64}
    (hok : (m.setDouble a d).answer = .ok old) :
    Undoable m (m.setDouble a d) (.doubleWord a old)
      (fun b => ∃ w ∈ DoubleWord.writes a d, w.touches b) True := by
  rcases m.setDouble_cases_pair a d with ⟨low, high, hpair⟩ | ⟨fault, hfault⟩
  · obtain ⟨hanswer, hstate⟩ := storeDouble_back hpair d
    rw [congrArg Step.state (storeDouble_of_pair hpair d)] at hanswer hstate
    rw [setDouble_of_pair hpair d] at hok ⊢
    obtain rfl := Except.ok.inj hok
    refine ⟨?_, hanswer, ?_⟩
    · simp only [Signal.recordsTo_append, recordsTo_notify, hsink, Sink.recordsTo_signals]
      rfl
    · change Renewed m (storeDouble _ a _).state _ _ _
      rw [hstate]
      exact (renewed_pair hpair _).congr (touches_writes_iff hpair.aligned hpair.inside d)
        (fun h => h) fun _ _ _ hgiven => hgiven
  · rw [hfault] at hok
    cases hok

end Memory
end ArchState
