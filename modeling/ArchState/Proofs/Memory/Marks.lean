import Mathlib.Data.List.Basic
import ArchState.Proofs.Memory.Request

/-! # Null words

A word is null until something is written to it. A block of a table is allocated as a whole, a
store may touch two words, and words are read in several ways, so a null word is tied to the
requests that were answered since the memory was emptied. This holds under every decoder.
-/
namespace ArchState

open Memory (StoreRequest)

/-- Whether a write covers a byte of the word at `b`. -/
def Memory.StoreRequest.touches (w : StoreRequest) (b : UInt32) : Prop :=
  ∃ i < w.length, (w.address.toNat + i) / 4 = b.toNat / 4

/-- Whether a request writes to the word at `b`, which segment `seg` owns. -/
def MemoryRequest.touches (seg : Segment) (b : UInt32) : MemoryRequest → Prop
  | install a _ => seg = .text ∧ wordBase a = wordBase b
  | request => ∃ w ∈ request.writes, w.touches b

theorem MemoryRequest.touches_of_not_installs {request : MemoryRequest}
    (h : request.installs = false) (seg : Segment) (b : UInt32) :
    request.touches seg b ↔ ∃ w ∈ request.writes, w.touches b := by
  cases request with
  | install a st => cases h
  | _ => exact Iff.rfl

theorem MemoryRequest.writes_of_not_stores {request : MemoryRequest}
    (h : request.stores = false) : request.writes = [] := by
  cases request with
  | store kind a d => cases h
  | storeRaw a v => cases h
  | restore record => cases h
  | _ => rfl

theorem Image.word?_write_self (decode : Decoder) (im : Image) (seg : Segment) {i : Nat}
    (hi : i < im.length seg * blockWords) (a w : UInt32) :
    ((im.write decode seg i a w).word? seg i).isSome = true := by
  cases seg <;> simp [write, word?, BlockTable.slot_put _ hi]

namespace Memory
variable {m n k : Memory} {seg other : Segment} {a b v : UInt32} {length : Nat} {P Q : Prop}

/-- On the way from one memory to another the word at `b` is written if it is touched and kept
otherwise. -/
structure Marks (m n : Memory) (seg : Segment) (b : UInt32) (touched : Prop) : Prop where
  written : touched → (n.wordAt? seg b).isSome = true
  kept : ¬ touched → n.wordAt? seg b = m.wordAt? seg b

theorem Marks.refl (h : ¬ P) : Marks m m seg b P := ⟨fun hp => absurd hp h, fun _ => rfl⟩

theorem Marks.congr (h : Marks m n seg b P) (hpq : P ↔ Q) : Marks m n seg b Q :=
  ⟨fun hq => h.written (hpq.mpr hq), fun hq => h.kept fun hp => hq (hpq.mp hp)⟩

theorem Marks.trans (h₁ : Marks m n seg b P) (h₂ : Marks n k seg b Q) :
    Marks m k seg b (P ∨ Q) := by
  constructor
  · intro h
    by_cases hq : Q
    · exact h₂.written hq
    · have hp : P := h.resolve_right hq
      rw [h₂.kept hq]
      exact h₁.written hp
  · intro h
    have hp : ¬ P := fun hp => h (.inl hp)
    have hq : ¬ Q := fun hq => h (.inr hq)
    rw [h₂.kept hq, h₁.kept hp]

theorem Marks.null_iff (h : Marks m n seg b P) :
    n.wordAt? seg b = none ↔ ¬ P ∧ m.wordAt? seg b = none := by
  by_cases hp : P
  · have hsome := h.written hp
    constructor
    · intro hnone
      simp [hnone] at hsome
    · intro hnone
      exact absurd hp hnone.1
  · rw [h.kept hp]
    exact ⟨fun hnone => ⟨hp, hnone⟩, And.right⟩

theorem marks_putWord (ha : (m.segments.bounds seg).contains a = true)
    (hb : (m.segments.bounds other).contains b = true) (w : UInt32) :
    Marks m (m.putWord seg a w) other b (seg = other ∧ wordBase a = wordBase b) := by
  constructor
  · rintro ⟨rfl, hword⟩
    have hslot : m.segments.slot seg a = m.segments.slot seg b :=
      (Segments.slot_inj ha hb).mpr hword
    have hself := m.image.word?_write_self m.decoder seg (slot_lt_length ha) a w
    rw [hslot] at hself
    change ((m.image.write m.decoder seg (m.segments.slot seg a) a w).word? seg _).isSome = true
    rw [hslot]
    exact hself
  · intro hne
    refine Image.word?_write_of_ne m.decoder m.image (slot_lt_length ha) a w ?_
    rintro ⟨rfl, hslot⟩
    exact hne ⟨rfl, (Segments.slot_inj ha hb).mp hslot⟩

theorem marks_putStatement (ha : (m.segments.bounds .text).contains a = true)
    (hb : (m.segments.bounds other).contains b = true) (st : Statement) :
    Marks m (m.putStatement a st) other b (other = .text ∧ wordBase a = wordBase b) := by
  have hlt : m.segments.slot .text a < m.image.length .text * blockWords := slot_lt_length ha
  cases other with
  | text =>
    have hslot : m.segments.slot .text a = m.segments.slot .text b ↔ wordBase a = wordBase b :=
      Segments.slot_inj ha hb
    have hword : (m.putStatement a st).wordAt? .text b =
        (if m.segments.slot .text a = m.segments.slot .text b then some st
          else m.image.text.slot (m.segments.slot .text b)).map Statement.binary :=
      congrArg (Option.map Statement.binary) (BlockTable.slot_put _ hlt (some st) _)
    constructor
    · rintro ⟨-, h⟩
      rw [hword, if_pos (hslot.mpr h)]
      rfl
    · intro h
      rw [hword, if_neg fun hs => h ⟨rfl, hslot.mp hs⟩]
      rfl
  | data | stack | mmio => exact ⟨fun h => absurd h.1 (by decide), fun _ => rfl⟩

/-- The parts of a store mark the words in which they lie. -/
theorem marks_foldl (v : UInt32) (hb : (m.segments.bounds other).contains b = true)
    (ps : List Part) (hps : ∀ p ∈ ps, (m.segments.bounds seg).contains p.address = true)
    (old : UInt32) :
    Marks m (ps.foldl (fun (old, m) p => (old ||| m.loadPart seg p, m.writePart seg v p))
        (old, m)).2 other b (∃ p ∈ ps, seg = other ∧ wordBase p.address = wordBase b) := by
  induction ps generalizing m old with
  | nil =>
    apply Marks.refl
    rintro ⟨p, hp, -⟩
    cases hp
  | cons p ps ih =>
    have hbase : (m.segments.bounds seg).contains (wordBase p.address) = true :=
      (Segments.contains_congr (l := m.layout) (wordBase_wordBase p.address) seg).trans
        (hps p List.mem_cons_self)
    have hfirst : Marks m (m.writePart seg v p) other b
        (seg = other ∧ wordBase p.address = wordBase b) := by
      have h := marks_putWord hbase hb
        (Word.insert (m.wordAt seg p.address) p.offset p.count (Word.down v p.done))
      rw [wordBase_wordBase] at h
      exact h
    have hrest := ih (m := m.writePart seg v p) hb
      (fun q hq => hps q (List.mem_cons_of_mem p hq)) (old ||| m.loadPart seg p)
    exact (hfirst.trans hrest).congr (by rw [List.exists_mem_cons_iff])

theorem contains_of_mem_parts {access : Access} (h : m.locate access a length = .ok seg)
    {p : Part} (hp : p ∈ parts a length) : (m.segments.bounds seg).contains p.address = true := by
  obtain ⟨hl, hw, -⟩ := locate_eq_ok_iff.mp h
  obtain ⟨ha, hz⟩ := contains_of_locate h
  by_cases hone : a.toNat % 4 + length ≤ 4
  · rw [parts_of_one_word hone, List.mem_singleton] at hp
    rw [hp]
    exact ha
  · rw [parts_of_two_words (by omega)] at hp
    simp only [List.mem_cons, List.not_mem_nil, or_false] at hp
    rcases hp with rfl | rfl
    · exact ha
    · exact contains_second (by omega) (by omega) hw hz

/-- A write touches the words in which its parts lie. -/
theorem touches_iff_parts (hl : length = 1 ∨ length = 2 ∨ length = 4)
    (hw : a.toNat + length ≤ 0x100000000) (v b : UInt32) :
    StoreRequest.touches ⟨a, v, length⟩ b ↔
      ∃ p ∈ parts a length, wordBase p.address = wordBase b := by
  rw [StoreRequest.touches]
  by_cases hone : a.toNat % 4 + length ≤ 4
  · simp only [parts_of_one_word hone, List.mem_singleton, exists_eq_left,
      Segments.wordBase_eq_iff]
    constructor
    · rintro ⟨i, hi, hword⟩
      omega
    · intro hword
      exact ⟨0, by omega, hword⟩
  · have hsecond : (a + UInt32.ofNat (4 - a.toNat % 4)).toNat = a.toNat + (4 - a.toNat % 4) :=
      second_toNat (Nat.lt_of_not_le hone) hw
    simp only [parts_of_two_words (Nat.lt_of_not_le hone), List.mem_cons, List.not_mem_nil,
      or_false, or_and_right, exists_or, exists_eq_left, Segments.wordBase_eq_iff, hsecond]
    constructor
    · rintro ⟨i, hi, hword⟩
      omega
    · rintro (hword | hword)
      · exact ⟨0, by omega, hword⟩
      · exact ⟨4 - a.toNat % 4, by omega, hword⟩

theorem marks_set (h : m.locate .write a length = .ok seg)
    (hb : m.segments.owner? b = some other) (v : UInt32) :
    Marks m (m.set a v length).state other b (StoreRequest.touches ⟨a, v, length⟩ b) := by
  obtain ⟨hl, hw, -⟩ := locate_eq_ok_iff.mp h
  have hmarks := marks_foldl v (Segments.contains_of_owner? hb) (parts a length)
    (fun p hp => contains_of_mem_parts h hp) 0
  rw [set_eq_replace h]
  refine Marks.congr (n := (m.replace seg a v length).2) hmarks ?_
  constructor
  · rintro ⟨p, hp, -, hword⟩
    exact (touches_iff_parts hl hw v b).mpr ⟨p, hp, hword⟩
  · intro htouches
    obtain ⟨p, hp, hword⟩ := (touches_iff_parts hl hw v b).mp htouches
    -- the segment of the store owns each byte of it, so it owns the word at `b`
    obtain ⟨i, hi, hbyte⟩ := htouches
    have hn : (a + UInt32.ofNat i).toNat = a.toNat + i :=
      toNat_add_ofNat (Nat.lt_of_lt_of_le (Nat.add_lt_add_left hi _) hw)
    have howner := owner?_of_locate (b := a + UInt32.ofNat i) h
      (hn ▸ Nat.le_add_right _ _) (hn ▸ Nat.add_lt_add_left hi _)
    have hsame : m.segments.owner? (a + UInt32.ofNat i) = m.segments.owner? b :=
      Segments.owner?_congr (Segments.wordBase_eq_iff.mpr (hn ▸ hbyte))
    have hseg : seg = other := Option.some.inj (howner.symm.trans (hsame.trans hb))
    exact ⟨p, hp, hseg, hword⟩

theorem marks_storeAll (writes : List StoreRequest) (h : ∀ w ∈ writes, m.accepts w = true)
    (hb : m.segments.owner? b = some seg) :
    Marks m (m.storeAll writes) seg b (∃ w ∈ writes, w.touches b) := by
  induction writes generalizing m with
  | nil =>
    apply Marks.refl
    rintro ⟨w, hw, -⟩
    cases hw
  | cons w writes ih =>
    have hfirst : Marks m (m.set w.address w.value w.length).state seg b (w.touches b) := by
      have haccepts := h w List.mem_cons_self
      rw [accepts] at haccepts
      cases hl : m.locate .write w.address w.length with
      | error fault =>
        rw [hl] at haccepts
        cases haccepts
      | ok place => exact marks_set hl hb w.value
    obtain ⟨image, fits, hframe⟩ := set_frame m w.address w.value w.length
    have hrest : Marks (m.set w.address w.value w.length).state
        ((m.set w.address w.value w.length).state.storeAll writes) seg b
        (∃ w ∈ writes, w.touches b) := by
      rw [hframe]
      exact ih (m := m.withImage image fits) (fun w' hw' => h w' (List.mem_cons_of_mem w hw')) hb
    exact (hfirst.trans hrest).congr (by rw [List.exists_mem_cons_iff])

theorem marks_install (m : Memory) (id : ObserverId) (a : UInt32) (st : Statement)
    (hb : m.segments.owner? b = some seg) :
    Marks m (m.serve id (.install a st)).state seg b
      ((m.serve id (.install a st)).answer.isSome = true ∧
        MemoryRequest.touches seg b (.install a st)) := by
  rw [serve, setStatement]
  cases hcheck : m.checkText .write a with
  | error fault => exact Marks.refl fun h => absurd h.1 Bool.false_ne_true
  | ok _ =>
    have htext : m.inSegment .text a = true := ((checkText_eq_ok_iff .write).mp hcheck).2
    have hput := marks_putStatement (m := m) htext (Segments.contains_of_owner? hb) st
    exact hput.congr ⟨fun h => ⟨rfl, h⟩, And.right⟩

/-- A request marks the words that it touches, if it is answered, and keeps every other word. -/
theorem marks_serve (m : Memory) (id : ObserverId) {request : MemoryRequest}
    (he : request.empties = false) (hb : m.segments.owner? b = some seg) :
    Marks m (m.serve id request).state seg b
      ((m.serve id request).answer.isSome = true ∧ request.touches seg b) := by
  cases hi : request.installs with
  | true =>
    cases request with
    | install a st => exact m.marks_install id a st hb
    | _ => cases hi
  | false =>
    have htouches := MemoryRequest.touches_of_not_installs hi seg b
    cases hs : request.stores with
    | true =>
      rcases m.decided_serve id hs with hrefused | hmade
      · rw [hrefused]
        exact Marks.refl fun h => absurd h.1 Bool.false_ne_true
      · rw [hmade.state]
        have hall := marks_storeAll request.writes hmade.allowed hb
        exact hall.congr ⟨fun h => ⟨hmade.answered, htouches.mpr h⟩, fun h => htouches.mp h.2⟩
    | false =>
      obtain ⟨hlayout, himage⟩ := m.serve_keeps_contents id hs hi he
      constructor
      · rintro ⟨-, h⟩
        rw [htouches, MemoryRequest.writes_of_not_stores hs] at h
        obtain ⟨w, hw, -⟩ := h
        cases hw
      · intro _
        simp only [wordAt?, segments, hlayout, himage]

end Memory

/-- A memory that requests have led to, with those that were answered since it was created,
emptied or laid out, the last one first. A copy takes over the past of its source. -/
inductive Past : Memory → List MemoryRequest → Prop where
  | created (l : Layout) : Past (.ofLayout l) []
  | served {m : Memory} {made : List MemoryRequest} (id : ObserverId) (request : MemoryRequest) :
      Past m made → Past (m.serve id request).state
        (if request.empties then []
          else if (m.serve id request).answer.isSome then request :: made else made)
  | copied {m n c : Memory} {made other : List MemoryRequest} :
      Past m made → Past n other → m.copyFrom? n = some c → Past c other

namespace Memory
variable {m : Memory} {seg : Segment} {a b w : UInt32} {made : List MemoryRequest}

theorem wordAt?_of_empties (m : Memory) (id : ObserverId) {request : MemoryRequest}
    (h : request.empties = true) (seg : Segment) (b : UInt32) :
    (m.serve id request).state.wordAt? seg b = none := by
  cases request with
  | clear => exact Image.word?_empty _ seg _
  | setLayout l => exact Image.word?_empty _ seg _
  | _ => cases h

/-- A word is null as long as no request that was answered has touched it. -/
theorem null_iff_untouched (h : Past m made) (hb : m.segments.owner? b = some seg) :
    m.wordAt? seg b = none ↔ ∀ request ∈ made, ¬ request.touches seg b := by
  induction h with
  | created l =>
    have hnull : (ofLayout l).wordAt? seg b = none := Image.word?_empty _ seg _
    exact ⟨fun _ => List.forall_mem_nil _, fun _ => hnull⟩
  | @served m made id request past ih =>
    cases he : request.empties with
    | true =>
      have hnull := m.wordAt?_of_empties id he seg b
      exact ⟨fun _ => List.forall_mem_nil _, fun _ => hnull⟩
    | false =>
      have hlayout := m.layout_serve id he
      rw [segments, hlayout] at hb
      have hmarks := (m.marks_serve id he hb).null_iff
      rw [hmarks, ih hb]
      cases hanswer : (m.serve id request).answer.isSome with
      | false => simp
      | true => simp
  | @copied m n c made other _ _ hcopy _ ih =>
    obtain rfl := copyFrom?_eq_some hcopy
    exact ih hb

/-- What programs read of a word that segment `seg` owns. -/
def permitted (m : Memory) (seg : Segment) (a v : UInt32) : Except AddressFault UInt32 :=
  if seg = .text ∧ m.selfModifying = false then .error ⟨.read, .textForbidden, a⟩ else .ok v

/-- All the readings of the word at `a` show `w`, those that programs make as far as they are
permitted. -/
structure Shows (m : Memory) (seg : Segment) (a w : UInt32) : Prop where
  raw : m.rawWord a = .ok w
  word : (m.getWord a).answer = m.permitted seg a w
  silent : m.fetchWord a = m.permitted seg a w
  bytes : ∃ byte : Nat → UInt32,
    w.toNat = (byte 0).toNat + 2 ^ 8 * (byte 1).toNat + 2 ^ 16 * (byte 2).toNat +
      2 ^ 24 * (byte 3).toNat ∧
    ∀ i < 4, (m.getByte (a + UInt32.ofNat i)).answer =
      m.permitted seg (a + UInt32.ofNat i) (byte i)

theorem locate_in_word {length : Nat} (hl : length = 1 ∨ length = 2 ∨ length = 4)
    (hword : a.toNat % 4 + length ≤ 4) (ha : m.segments.owner? a = some seg) :
    m.locate .read a length =
      if seg = .text ∧ m.selfModifying = false then .error ⟨.read, .textForbidden, a⟩
      else .ok seg := by
  have hlt := a.toNat_lt
  have hfits : a.toNat + length ≤ 0x100000000 := by omega
  by_cases hforbidden : seg = .text ∧ m.selfModifying = false
  · obtain ⟨rfl, hself⟩ := hforbidden
    rw [if_pos ⟨rfl, hself⟩, locate, if_neg (by omega), if_neg (by omega), ha, hself]
    rfl
  · have hlast : m.segments.owner? (a + UInt32.ofNat (length - 1)) = some seg := by
      rw [← ha]
      refine Segments.owner?_congr (Segments.wordBase_eq_iff.mpr ?_)
      rw [last_toNat (by omega) hfits]
      omega
    have htext : seg = .text → m.selfModifying = true ∧ a.toNat % 4 + length ≤ 4 := by
      intro hseg
      refine ⟨?_, hword⟩
      cases hself : m.selfModifying with
      | true => rfl
      | false => exact absurd ⟨hseg, hself⟩ hforbidden
    rw [if_neg hforbidden]
    exact locate_eq_ok_iff.mpr ⟨hl, hfits, ha, hlast, htext⟩

theorem fetch_in_word {length : Nat} (hl : length = 1 ∨ length = 2 ∨ length = 4)
    (hword : a.toNat % 4 + length ≤ 4) (ha : m.segments.owner? a = some seg) :
    m.fetch a length = m.permitted seg a (m.load seg a length) := by
  rw [fetch_eq, locate_in_word hl hword ha, permitted]
  split <;> rfl

theorem getAligned_in_word {length : Nat} (hl : length = 1 ∨ length = 2 ∨ length = 4)
    (haligned : a.toNat % length = 0) (ha : m.segments.owner? a = some seg) :
    (m.getAligned a length).answer = m.permitted seg a (m.load seg a length) := by
  have hword : a.toNat % 4 + length ≤ 4 := by
    rcases hl with rfl | rfl | rfl <;> omega
  have hget : m.getAligned a length = m.get a length := by
    rw [getAligned, checkAligned, if_pos haligned]
    rfl
  rw [hget, get, fetch_in_word hl hword ha, permitted]
  split <;> rfl

/-- A load of a byte of an aligned word answers the byte that the word has there. -/
theorem load_byte_of_word (haligned : a.toNat % 4 = 0) (ha : m.segments.owner? a = some seg)
    {i : Nat} (hi : i < 4) :
    (m.load seg (a + UInt32.ofNat i) 1).toNat = (m.wordAt seg a).toNat / 256 ^ i % 256 := by
  have hlt := a.toNat_lt
  have hn : (a + UInt32.ofNat i).toNat = a.toNat + i := toNat_add_ofNat (by omega)
  have howner : m.segments.owner? (a + UInt32.ofNat i) = some seg := by
    rw [← ha]
    exact Segments.owner?_congr (Segments.wordBase_eq_iff.mpr (by omega))
  have hin := Segments.contains_of_owner? howner
  have hlast : a + UInt32.ofNat i + UInt32.ofNat (1 - 1) = a + UInt32.ofNat i := UInt32.add_zero _
  have hload : m.load seg (a + UInt32.ofNat i) 1 =
      UInt32.ofNat (Word.byte (m.wordAt seg a) i).toNat := by
    apply Word.ext_byte
    intro j hj
    rw [byte_load (by omega) (by omega) hin (by rw [hlast]; exact hin) hj,
      Word.byte_ofNat (Nat.lt_of_lt_of_le (UInt8.toNat_lt _) (by decide))]
    by_cases hzero : j = 0
    · subst hzero
      rw [if_pos (by omega), show UInt32.ofNat 0 = 0 from rfl, UInt32.add_zero,
        byteAt_add haligned (Segments.contains_of_owner? ha) hi]
      simp
    · have hpow : 256 ≤ 256 ^ j := Nat.le_self_pow hzero 256
      rw [if_neg (by omega), Nat.div_eq_of_lt (Nat.lt_of_lt_of_le (UInt8.toNat_lt _) hpow)]
      rfl
  rw [hload, UInt32.toNat_ofNat_of_lt' (Nat.lt_of_lt_of_le (UInt8.toNat_lt _) (by decide)),
    Word.byte_eq, UInt8.toNat_ofNat']

theorem shows_wordAt (haligned : a.toNat % 4 = 0) (ha : m.segments.owner? a = some seg) :
    m.Shows seg a (m.wordAt seg a) where
  raw := rawWord_of_owner haligned ha
  word := by
    rw [← load_word haligned]
    exact getAligned_in_word (by omega) haligned ha
  silent := by
    rw [← load_word haligned, ← fetch_in_word (by omega) (by omega) ha, fetchWord, checkAligned,
      if_pos haligned]
    rfl
  bytes := by
    refine ⟨fun i => m.load seg (a + UInt32.ofNat i) 1, ?_, ?_⟩
    · have hlt := (m.wordAt seg a).toNat_lt
      have hfirst := load_byte_of_word (i := 0) haligned ha (by decide)
      have hsecond := load_byte_of_word (i := 1) haligned ha (by decide)
      have hthird := load_byte_of_word (i := 2) haligned ha (by decide)
      have hfourth := load_byte_of_word (i := 3) haligned ha (by decide)
      dsimp only
      rw [hfirst, hsecond, hthird, hfourth]
      omega
    · intro i hi
      have hlt := a.toNat_lt
      have hn : (a + UInt32.ofNat i).toNat = a.toNat + i := toNat_add_ofNat (by omega)
      refine getAligned_in_word (by omega) (Nat.mod_one _) ?_
      rw [← ha]
      exact Segments.owner?_congr (Segments.wordBase_eq_iff.mpr (by omega))

/-- Null words are exactly those that no request has touched since the memory was emptied, and
all readings of a word agree. A request that is refused or that touches other words only leaves
a word as it is, null or not. -/
theorem null_marks_track_writes (h : Past m made) (haligned : a.toNat % 4 = 0)
    (howner : m.segments.owner? a = some seg) :
    ∃ content : Option UInt32, m.rawWord? a = .ok content ∧
      (content = none ↔ ∀ request ∈ made, ¬ request.touches seg a) ∧
      m.Shows seg a (content.getD 0) ∧
      ∀ id request, request.empties = false →
        (m.serve id request).answer = none ∨ ¬ request.touches seg a →
        (m.serve id request).state.rawWord? a = .ok content := by
  have hraw : ∀ n : Memory, n.layout = m.layout → n.rawWord? a = .ok (n.wordAt? seg a) := by
    intro n hlayout
    have hn : n.segments.owner? a = some seg := by
      rw [segments, hlayout]
      exact howner
    rw [rawWord?, checkAligned, if_pos haligned, hn]
    rfl
  refine ⟨m.wordAt? seg a, hraw m rfl, null_iff_untouched h howner,
    shows_wordAt haligned howner, ?_⟩
  intro id request he hquiet
  have hmarks := m.marks_serve id he howner
  rw [hraw _ (m.layout_serve id he), hmarks.kept]
  rintro ⟨hanswer, htouches⟩
  rcases hquiet with hrefused | huntouched
  · simp [hrefused] at hanswer
  · exact huntouched htouches

/-- A store over the end of a word marks two words. The next word of their block stays null. -/
theorem straddling_store_marks_two_words :
    let m := ((ofLayout .compactTextAtZero).serve ⟨1⟩ (.store (.bytes 2) 0x1003 0xBEEF)).state
    (∃ w, m.rawWord? 0x1000 = .ok (some w)) ∧ (∃ w, m.rawWord? 0x1004 = .ok (some w)) ∧
      m.rawWord? 0x1008 = .ok none ∧ m.rawWord 0x1008 = .ok 0 := by
  have hlocate : (ofLayout .compactTextAtZero).locate .write 0x1003 2 = .ok .data := by rfl
  have hanswer : ((ofLayout .compactTextAtZero).serve ⟨1⟩
      (.store (.bytes 2) 0x1003 0xBEEF)).answer.isSome = true := by
    rw [answer_storeBytes hlocate]
    rfl
  intro m
  have hpast := Past.served ⟨1⟩ (.store (.bytes 2) 0x1003 0xBEEF) (.created .compactTextAtZero)
  rw [hanswer] at hpast
  change Past m [.store (.bytes 2) 0x1003 0xBEEF] at hpast
  have howner : ∀ a : UInt32, (Segments.ofLayout .compactTextAtZero).owner? a = some .data →
      m.segments.owner? a = some .data := by
    intro a ha
    rw [segments, show m.layout = .compactTextAtZero from layout_serve _ _ rfl]
    exact ha
  have htouched : ∀ b : UInt32, MemoryRequest.touches .data b (.store (.bytes 2) 0x1003 0xBEEF) ↔
      b.toNat / 4 = 0x400 ∨ b.toNat / 4 = 0x401 := by
    intro b
    constructor
    · rintro ⟨w, hw, i, hi, hword⟩
      obtain rfl := List.mem_singleton.mp hw
      change i < 2 at hi
      change (0x1003 + i) / 4 = b.toNat / 4 at hword
      omega
    · rintro (hword | hword)
      · exact ⟨_, List.mem_singleton_self _, 0, by decide, hword.symm⟩
      · exact ⟨_, List.mem_singleton_self _, 1, by decide, hword.symm⟩
  have hcontent : ∀ a : UInt32, a.toNat % 4 = 0 →
      (Segments.ofLayout .compactTextAtZero).owner? a = some .data → ∃ content : Option UInt32,
        m.rawWord? a = .ok content ∧ m.rawWord a = .ok (content.getD 0) ∧
          (content = none ↔ ¬ (a.toNat / 4 = 0x400 ∨ a.toNat / 4 = 0x401)) := by
    intro a haligned ha
    obtain ⟨content, hraw, hnull, hshows, -⟩ :=
      null_marks_track_writes hpast haligned (howner a ha)
    refine ⟨content, hraw, hshows.raw, ?_⟩
    rw [hnull, ← htouched a]
    simp
  obtain ⟨first, hfirst, -, hfirstNull⟩ := hcontent 0x1000 (by decide) (by decide +kernel)
  obtain ⟨second, hsecond, -, hsecondNull⟩ := hcontent 0x1004 (by decide) (by decide +kernel)
  obtain ⟨third, hthird, hzero, hthirdNull⟩ := hcontent 0x1008 (by decide) (by decide +kernel)
  obtain rfl := hthirdNull.mpr (by decide)
  refine ⟨?_, ?_, hthird, hzero⟩
  · cases first with
    | none => exact absurd (.inl rfl) (hfirstNull.mp rfl)
    | some w => exact ⟨w, hfirst⟩
  · cases second with
    | none => exact absurd (.inr rfl) (hsecondNull.mp rfl)
    | some w => exact ⟨w, hsecond⟩

end Memory
end ArchState
