import ArchState.Proofs.Memory.Undo

/-! # Double words

A double word is stored as two words or not at all. The two words may lie in two segments, and
text takes part in it when programs may change it. Both stores are checked before the first one
is made, so a store that fails has written nothing and told nobody. All of this holds under
every decoder.
-/
namespace ArchState

theorem DoubleWord.ofWords_eq_or (low high : UInt32) :
    ofWords low high = (high.toUInt64 <<< 32) ||| low.toUInt64 := by
  have hl : low.toNat < 2 ^ 32 := low.toNat_lt
  have hh : high.toNat < 2 ^ 32 := high.toNat_lt
  apply UInt64.toNat_inj.mp
  rw [ofWords_toNat, UInt64.toNat_or, UInt64.toNat_shiftLeft, UInt32.toNat_toUInt64,
    UInt32.toNat_toUInt64, show (32 : UInt64).toNat % 64 = 32 from rfl,
    Nat.mod_eq_of_lt (by rw [Nat.shiftLeft_eq]; omega), ← Nat.shiftLeft_add_eq_or_of_lt hl,
    Nat.shiftLeft_eq]

/-- The notices among some signals, in their order. -/
def Signal.notices (signals : List Signal) : List Signal :=
  signals.filter fun
    | .undo _ _ => false
    | _ => true

namespace Word

theorem extract_whole (w : UInt32) : extract w 0 4 = w := by
  apply ext_byte
  intro j hj
  rw [byte_extract w (by decide) hj, if_pos hj, Nat.zero_add]

theorem insert_whole (w v : UInt32) : insert w 0 4 v = v := by
  apply ext_byte
  intro j hj
  rw [byte_insert w v (by decide) 4 hj, if_pos ⟨Nat.zero_le j, by omega⟩, Nat.sub_zero]

theorem low_whole (w : UInt32) : low w 4 = w := by
  apply ext_byte
  intro j hj
  rw [byte_low w 4 hj, if_pos hj]

theorem up_zero (w : UInt32) : up w 0 = w := by
  apply ext_byte
  intro j hj
  rw [byte_up w (by decide) hj, if_pos (Nat.zero_le j), Nat.sub_zero]

theorem down_zero (w : UInt32) : down w 0 = w := by
  apply ext_byte
  intro j _
  rw [byte_down w (by decide), Nat.add_zero]

end Word

namespace Memory
variable {m : Memory} {seg other : Segment} {a b : UInt32} {d : UInt64}

theorem wordBase_of_aligned (h : a.toNat % 4 = 0) : wordBase a = a := by
  rw [← UInt32.toNat_inj, wordBase_toNat]
  omega

theorem notices_notify (m : Memory) (access : Access) (a : UInt32) (length : Nat)
    (value : UInt32) :
    Signal.notices (m.notify access a length value) = m.notify access a length value := by
  rw [Signal.notices, List.filter_eq_self]
  intro s hs
  obtain ⟨r, -, -, rfl⟩ := mem_notify.mp hs
  rfl

theorem notices_sent (sink : Option Sink) (record : UndoRecord) :
    Signal.notices (Sink.signals sink record) = [] := by
  cases sink <;> rfl

theorem load_word (h : a.toNat % 4 = 0) : m.load seg a 4 = m.wordAt seg a := by
  rw [load, parts_of_one_word (by omega), List.foldl_cons, List.foldl_nil, loadPart, Part.offset,
    h, Word.extract_whole, Word.up_zero, UInt32.zero_or]

theorem replace_word (h : a.toNat % 4 = 0) (v : UInt32) :
    m.replace seg a v 4 = (m.wordAt seg a, m.putWord seg a v) := by
  rw [replace, parts_of_one_word (by omega), List.foldl_cons, List.foldl_nil]
  change (0 ||| m.loadPart seg ⟨a, 0, 4⟩, m.writePart seg v ⟨a, 0, 4⟩) = _
  rw [loadPart, writePart, Part.offset, h, Word.extract_whole, Word.up_zero, UInt32.zero_or,
    Word.insert_whole, Word.down_zero, wordBase_of_aligned h]

theorem set_word (haligned : a.toNat % 4 = 0) (h : m.locate .write a 4 = .ok seg) (v : UInt32) :
    m.set a v 4 = ⟨.ok (m.wordAt seg a), m.putWord seg a v, m.notify .write a 4 v⟩ := by
  rw [set_eq_replace h, replace_word haligned, Word.low_whole]
  rfl

theorem setWord_of_locate (haligned : a.toNat % 4 = 0) (h : m.locate .write a 4 = .ok seg)
    (v : UInt32) : m.setWord a v =
      ⟨.ok (m.wordAt seg a), m.putWord seg a v,
        m.notify .write a 4 v ++ Sink.signals m.sink (.word a (m.wordAt seg a))⟩ := by
  rw [setWord, setAligned, checkAligned, if_pos haligned, Step.guarded, set_word haligned h]
  rfl

theorem locate_of_setWord {v w : UInt32} (h : (m.setWord a v).answer = .ok w) :
    a.toNat % 4 = 0 ∧ ∃ seg, m.locate .write a 4 = .ok seg := by
  by_cases haligned : a.toNat % 4 = 0
  · refine ⟨haligned, ?_⟩
    cases hl : m.locate .write a 4 with
    | ok seg => exact ⟨seg, rfl⟩
    | error fault =>
      rw [setWord, setAligned, checkAligned, if_pos haligned, Step.guarded, set_of_fault hl] at h
      cases h
  · rw [setWord, setAligned, checkAligned, if_neg haligned] at h
    cases h

theorem getWord_of_locate (haligned : a.toNat % 4 = 0) (h : m.locate .read a 4 = .ok seg) :
    m.getWord a = ⟨.ok (m.wordAt seg a), m.notify .read a 4 (m.wordAt seg a)⟩ := by
  rw [getWord, getAligned, checkAligned, if_pos haligned, ← load_word haligned]
  exact get_of_locate h

theorem locate_of_getWord {w : UInt32} (h : (m.getWord a).answer = .ok w) :
    a.toNat % 4 = 0 ∧ ∃ seg, m.locate .read a 4 = .ok seg := by
  by_cases haligned : a.toNat % 4 = 0
  · refine ⟨haligned, ?_⟩
    rw [getWord, getAligned, checkAligned, if_pos haligned] at h
    cases hl : m.locate .read a 4 with
    | ok seg => exact ⟨seg, rfl⟩
    | error fault =>
      change (m.get a 4).answer = .ok w at h
      rw [get_of_fault hl] at h
      cases h
  · rw [getWord, getAligned, checkAligned, if_neg haligned] at h
    cases h

theorem rawWord_of_owner (haligned : a.toNat % 4 = 0) (h : m.segments.owner? a = some seg) :
    m.rawWord a = .ok (m.wordAt seg a) := by
  rw [rawWord, rawWord?, checkAligned, if_pos haligned, h]
  rfl

/-- A store of a word leaves the next word alone. They share no slot, as they lie in two words of
one segment or in two segments. -/
theorem wordAt_putWord_upper (ha : (m.segments.bounds seg).contains a = true)
    (hb : (m.segments.bounds other).contains b = true) (h : a.toNat / 4 ≠ b.toNat / 4)
    (w : UInt32) : (m.putWord seg a w).wordAt other b = m.wordAt other b := by
  have hslot : ¬ (seg = other ∧ m.segments.slot seg a = m.segments.slot other b) := by
    rintro ⟨rfl, hs⟩
    exact h (Segments.wordBase_eq_iff.mp ((Segments.slot_inj ha hb).mp hs))
  have hword : (m.putWord seg a w).wordAt? other b = m.wordAt? other b :=
    Image.word?_write_of_ne m.decoder m.image (slot_lt_length ha) a w hslot
  exact congrArg (·.getD 0) hword

/-- The words at `a` and behind it may both be accessed, the one in segment `low` and the other
one in segment `high`. -/
structure WordPair (m : Memory) (a : UInt32) (low high : Segment) : Prop where
  aligned : a.toNat % 4 = 0
  inside : a.toNat + 4 < 0x100000000
  lower (access : Access) : m.locate access a 4 = .ok low
  upper (access : Access) : m.locate access (a + 4) 4 = .ok high

theorem WordPair.upper_aligned {low high : Segment} (h : WordPair m a low high) :
    (a + 4).toNat % 4 = 0 := (Memory.upper_aligned h.aligned h.inside).2

theorem wordPair_of_locate {access : Access} {low high : Segment} (haligned : a.toNat % 4 = 0)
    (hinside : a.toNat + 4 < 0x100000000) (hlow : m.locate access a 4 = .ok low)
    (hhigh : m.locate access (a + 4) 4 = .ok high) : WordPair m a low high where
  aligned := haligned
  inside := hinside
  lower other := (locate_isOk_of_access m other a 4 low).mpr
    ((locate_isOk_of_access m access a 4 low).mp hlow)
  upper other := (locate_isOk_of_access m other (a + 4) 4 high).mpr
    ((locate_isOk_of_access m access (a + 4) 4 high).mp hhigh)

theorem storeDouble_of_pair {low high : Segment} (h : WordPair m a low high) (d : UInt64) :
    m.storeDouble a d =
      ⟨.ok (DoubleWord.ofWords (m.wordAt low a) (m.wordAt high (a + 4))),
        (m.putWord low a (DoubleWord.lowWord d)).putWord high (a + 4) (DoubleWord.highWord d),
        m.notify .write a 4 (DoubleWord.lowWord d) ++
          m.notify .write (a + 4) 4 (DoubleWord.highWord d)⟩ := by
  have hcheck : m.checkDoubleStore a = .ok (a + 4) := checkDoubleStore_eq_ok_iff.mpr
    ⟨h.aligned, h.inside, rfl, ⟨low, h.lower .write⟩, high, h.upper .write⟩
  have hupper : (m.putWord low a (DoubleWord.lowWord d)).locate .write (a + 4) 4 = .ok high :=
    h.upper .write
  have hkeep := wordAt_putWord_upper (contains_of_locate (h.lower .write)).1
    (contains_of_locate (h.upper .write)).1
    (by rw [(Memory.upper_aligned h.aligned h.inside).1]; omega) (DoubleWord.lowWord d)
  rw [storeDouble, hcheck, Step.guarded, set_word h.aligned (h.lower .write)]
  simp only [Step.thenTry, Step.andThen, Step.guarded, set_word h.upper_aligned hupper, hkeep,
    Step.quiet, List.append_nil]
  rfl

theorem setDouble_of_pair {low high : Segment} (h : WordPair m a low high) (d : UInt64) :
    m.setDouble a d =
      ⟨.ok (DoubleWord.ofWords (m.wordAt low a) (m.wordAt high (a + 4))),
        (m.putWord low a (DoubleWord.lowWord d)).putWord high (a + 4) (DoubleWord.highWord d),
        m.notify .write a 4 (DoubleWord.lowWord d) ++
          m.notify .write (a + 4) 4 (DoubleWord.highWord d) ++
          Sink.signals m.sink
            (.doubleWord a (DoubleWord.ofWords (m.wordAt low a) (m.wordAt high (a + 4))))⟩ := by
  rw [setDouble, storeDouble_of_pair h]
  rfl

theorem getDouble_of_pair {low high : Segment} (h : WordPair m a low high) :
    m.getDouble a = ⟨.ok (DoubleWord.ofWords (m.wordAt low a) (m.wordAt high (a + 4))),
      m.notify .read a 4 (m.wordAt low a) ++
        m.notify .read (a + 4) 4 (m.wordAt high (a + 4))⟩ := by
  have hlow : m.fetch a 4 = .ok (m.wordAt low a) := by
    rw [fetch_eq, h.lower .read, ← load_word h.aligned]
    rfl
  have hhigh : m.fetch (a + 4) 4 = .ok (m.wordAt high (a + 4)) := by
    rw [fetch_eq, h.upper .read, ← load_word h.upper_aligned]
    rfl
  have hupper : upperHalf .read a = .ok (a + 4) := by
    rw [upperHalf, checkAligned, if_pos h.aligned, if_pos h.inside]
    rfl
  simp only [getDouble, hupper, Reading.guarded, hlow, hhigh]

/-- A double word is stored where both words may be accessed, and is refused elsewhere. -/
theorem storeDouble_cases_pair (m : Memory) (a : UInt32) (d : UInt64) :
    (∃ low high, WordPair m a low high) ∨
      ∃ fault, m.storeDouble a d = .quiet (.error fault) m := by
  cases hcheck : m.checkDoubleStore a with
  | error fault =>
    right
    refine ⟨fault, ?_⟩
    rw [storeDouble, hcheck]
    rfl
  | ok b =>
    left
    obtain ⟨haligned, hinside, -, ⟨low, hlow⟩, high, hhigh⟩ := checkDoubleStore_eq_ok_iff.mp hcheck
    exact ⟨low, high, wordPair_of_locate haligned hinside hlow hhigh⟩

theorem setDouble_cases_pair (m : Memory) (a : UInt32) (d : UInt64) :
    (∃ low high, WordPair m a low high) ∨
      ∃ fault, m.setDouble a d = .quiet (.error fault) m := by
  rcases m.storeDouble_cases_pair a d with hpair | ⟨fault, hfault⟩
  · exact .inl hpair
  · right
    refine ⟨fault, ?_⟩
    rw [setDouble, hfault]
    rfl

theorem getDouble_eq_ok {old : UInt64} (h : (m.getDouble a).answer = .ok old) :
    ∃ low high, WordPair m a low high := by
  by_cases haligned : a.toNat % 4 = 0
  · by_cases hinside : a.toNat + 4 < 0x100000000
    · have hupper : upperHalf .read a = .ok (a + 4) := by
        rw [upperHalf, checkAligned, if_pos haligned, if_pos hinside]
        rfl
      simp only [getDouble, hupper, Reading.guarded, fetch_eq] at h
      cases hlow : m.locate .read a 4 with
      | error fault =>
        rw [hlow] at h
        cases h
      | ok low =>
        cases hhigh : m.locate .read (a + 4) 4 with
        | error fault =>
          rw [hlow, hhigh] at h
          cases h
        | ok high => exact ⟨low, high, wordPair_of_locate haligned hinside hlow hhigh⟩
    · rw [getDouble, upperHalf, checkAligned, if_pos haligned, if_neg hinside] at h
      cases h
  · rw [getDouble, upperHalf, checkAligned, if_neg haligned] at h
    cases h

/-- What a store of a double word has done when it succeeds: both stores of words, with one record
in place of two. -/
theorem setDouble_eq_setWords {low high : Segment} (h : WordPair m a low high) (d : UInt64) :
    let lower := m.setWord a (DoubleWord.lowWord d)
    let upper := lower.state.setWord (a + 4) (DoubleWord.highWord d)
    let old := DoubleWord.ofWords (m.wordAt low a) (m.wordAt high (a + 4))
    lower.answer = .ok (m.wordAt low a) ∧ upper.answer = .ok (m.wordAt high (a + 4)) ∧
      m.setDouble a d = ⟨.ok old, upper.state,
        Signal.notices lower.signals ++ Signal.notices upper.signals ++
          Sink.signals m.sink (.doubleWord a old)⟩ := by
  have hupper : (m.putWord low a (DoubleWord.lowWord d)).locate .write (a + 4) 4 = .ok high :=
    h.upper .write
  have hkeep := wordAt_putWord_upper (contains_of_locate (h.lower .write)).1
    (contains_of_locate (h.upper .write)).1
    (by rw [(Memory.upper_aligned h.aligned h.inside).1]; omega) (DoubleWord.lowWord d)
  simp only [setWord_of_locate h.aligned (h.lower .write),
    setWord_of_locate h.upper_aligned hupper, hkeep, setDouble_of_pair h, Signal.notices,
    List.filter_append]
  simp only [← Signal.notices.eq_1, notices_notify, notices_sent, List.append_nil, true_and]
  rfl

theorem setDouble_isOk_iff : (∃ old, (m.setDouble a d).answer = .ok old) ↔
    a.toNat + 4 < 0x100000000 ∧
      (∃ low, (m.setWord a (DoubleWord.lowWord d)).answer = .ok low) ∧
      ∃ high, (m.setWord (a + 4) (DoubleWord.highWord d)).answer = .ok high := by
  constructor
  · rintro ⟨old, hold⟩
    rcases setDouble_cases_pair m a d with ⟨low, high, hpair⟩ | ⟨fault, hfault⟩
    · refine ⟨hpair.inside, ⟨m.wordAt low a, ?_⟩, m.wordAt high (a + 4), ?_⟩
      · rw [setWord_of_locate hpair.aligned (hpair.lower .write)]
      · rw [setWord_of_locate hpair.upper_aligned (hpair.upper .write)]
    · rw [hfault] at hold
      cases hold
  · rintro ⟨hinside, ⟨low, hlow⟩, high, hhigh⟩
    obtain ⟨haligned, lowSeg, hlower⟩ := locate_of_setWord hlow
    obtain ⟨-, highSeg, hupper⟩ := locate_of_setWord hhigh
    rw [setDouble_of_pair (wordPair_of_locate haligned hinside hlower hupper)]
    exact ⟨_, rfl⟩

theorem setDouble_of_fault {fault : AddressFault} (h : (m.setDouble a d).answer = .error fault) :
    (m.setDouble a d).state = m ∧ (m.setDouble a d).signals = [] := by
  rcases setDouble_cases_pair m a d with ⟨low, high, hpair⟩ | ⟨fault', hfault'⟩
  · rw [setDouble_of_pair hpair] at h
    cases h
  · rw [hfault']
    exact ⟨rfl, rfl⟩

theorem setDouble_of_ok {old : UInt64} (h : (m.setDouble a d).answer = .ok old) :
    let lower := m.setWord a (DoubleWord.lowWord d)
    let upper := lower.state.setWord (a + 4) (DoubleWord.highWord d)
    ∃ low high, m.rawWord a = .ok low ∧ m.rawWord (a + 4) = .ok high ∧
      lower.answer = .ok low ∧ upper.answer = .ok high ∧
      old = (high.toUInt64 <<< 32) ||| low.toUInt64 ∧
      (m.setDouble a d).state = upper.state ∧
      (m.setDouble a d).signals =
        Signal.notices lower.signals ++ Signal.notices upper.signals ++
          Sink.signals m.sink (.doubleWord a old) := by
  rcases setDouble_cases_pair m a d with ⟨low, high, hpair⟩ | ⟨fault, hfault⟩
  · obtain ⟨hlower, hupper, hstep⟩ := setDouble_eq_setWords hpair d
    have hlowRaw : m.rawWord a = .ok (m.wordAt low a) := rawWord_of_owner hpair.aligned
      (owner?_of_locate (hpair.lower .read) (Nat.le_refl _) (by omega))
    have hhighRaw : m.rawWord (a + 4) = .ok (m.wordAt high (a + 4)) :=
      rawWord_of_owner hpair.upper_aligned
        (owner?_of_locate (hpair.upper .read) (Nat.le_refl _) (by omega))
    rw [hstep] at h ⊢
    obtain rfl := Except.ok.inj h
    exact ⟨_, _, hlowRaw, hhighRaw, hlower, hupper, DoubleWord.ofWords_eq_or _ _, rfl, rfl⟩
  · rw [hfault] at h
    cases h

theorem getDouble_eq_ok_iff {old : UInt64} : (m.getDouble a).answer = .ok old ↔
    a.toNat + 4 < 0x100000000 ∧ ∃ low high,
      (m.getWord a).answer = .ok low ∧ (m.getWord (a + 4)).answer = .ok high ∧
      old = (high.toUInt64 <<< 32) ||| low.toUInt64 := by
  constructor
  · intro hold
    obtain ⟨low, high, hpair⟩ := getDouble_eq_ok hold
    rw [getDouble_of_pair hpair] at hold
    obtain rfl := Except.ok.inj hold
    rw [getWord_of_locate hpair.aligned (hpair.lower .read),
      getWord_of_locate hpair.upper_aligned (hpair.upper .read)]
    exact ⟨hpair.inside, _, _, rfl, rfl, DoubleWord.ofWords_eq_or _ _⟩
  · rintro ⟨hinside, low, high, hlow, hhigh, rfl⟩
    obtain ⟨haligned, lowSeg, hlower⟩ := locate_of_getWord hlow
    obtain ⟨-, highSeg, hupper⟩ := locate_of_getWord hhigh
    have hpair := wordPair_of_locate haligned hinside hlower hupper
    rw [getWord_of_locate hpair.aligned (hpair.lower .read)] at hlow
    rw [getWord_of_locate hpair.upper_aligned (hpair.upper .read)] at hhigh
    obtain rfl := Except.ok.inj hlow
    obtain rfl := Except.ok.inj hhigh
    rw [getDouble_of_pair hpair, DoubleWord.ofWords_eq_or]

/-- A load of a double word that succeeds tells what the two loads of words tell. -/
theorem signals_getDouble {old : UInt64} (h : (m.getDouble a).answer = .ok old) :
    (m.getDouble a).signals = (m.getWord a).signals ++ (m.getWord (a + 4)).signals := by
  obtain ⟨low, high, hpair⟩ := getDouble_eq_ok h
  rw [getDouble_of_pair hpair, getWord_of_locate hpair.aligned (hpair.lower .read),
    getWord_of_locate hpair.upper_aligned (hpair.upper .read)]

theorem getDouble_of_fault {fault : AddressFault} (h : (m.getDouble a).answer = .error fault) :
    (m.getDouble a).signals = [] := by
  rcases m.getDouble_cases a with ⟨fault', hfault'⟩ | ⟨low, high, hok⟩
  · rw [hfault']
  · rw [hok] at h
    cases h

/-- A double word is two words. It is stored where both words may be stored. A store that fails
changes nothing and sends nothing. One that succeeds is the two stores of words, the lower one
first, and sends one record, with the words that were there before, in place of two. A load
answers the same two words and tells what the two loads of words tell. One that fails tells nothing,
even if the lower word alone could be loaded. -/
theorem double_word_is_two_words (m : Memory) (a : UInt32) (d : UInt64) :
    ((∃ old, (m.setDouble a d).answer = .ok old) ↔
      a.toNat + 4 < 0x100000000 ∧
        (∃ low, (m.setWord a (DoubleWord.lowWord d)).answer = .ok low) ∧
        ∃ high, (m.setWord (a + 4) (DoubleWord.highWord d)).answer = .ok high) ∧
    (∀ fault, (m.setDouble a d).answer = .error fault →
      (m.setDouble a d).state = m ∧ (m.setDouble a d).signals = []) ∧
    (∀ old, (m.setDouble a d).answer = .ok old →
      let lower := m.setWord a (DoubleWord.lowWord d)
      let upper := lower.state.setWord (a + 4) (DoubleWord.highWord d)
      ∃ low high, m.rawWord a = .ok low ∧ m.rawWord (a + 4) = .ok high ∧
        lower.answer = .ok low ∧ upper.answer = .ok high ∧
        old = (high.toUInt64 <<< 32) ||| low.toUInt64 ∧
        (m.setDouble a d).state = upper.state ∧
        (m.setDouble a d).signals =
          Signal.notices lower.signals ++ Signal.notices upper.signals ++
            Sink.signals m.sink (.doubleWord a old)) ∧
    (∀ old, (m.getDouble a).answer = .ok old ↔
      a.toNat + 4 < 0x100000000 ∧ ∃ low high,
        (m.getWord a).answer = .ok low ∧ (m.getWord (a + 4)).answer = .ok high ∧
        old = (high.toUInt64 <<< 32) ||| low.toUInt64) ∧
    (∀ old, (m.getDouble a).answer = .ok old →
      (m.getDouble a).signals = (m.getWord a).signals ++ (m.getWord (a + 4)).signals) ∧
    ∀ fault, (m.getDouble a).answer = .error fault → (m.getDouble a).signals = [] :=
  ⟨setDouble_isOk_iff, fun _ => setDouble_of_fault, fun _ => setDouble_of_ok,
    fun _ => getDouble_eq_ok_iff, fun _ => signals_getDouble, fun _ => getDouble_of_fault⟩

/-- The words of a double word may lie in the data segment and in the stack. Behind the stack no
segment begins, so the last word of the stack is kept although it could be stored alone. -/
theorem double_word_over_two_segments :
    let m := { ofLayout .compactTextAtZero with sink := some (.recorder 0) }
    (m.setDouble 0x2FFC 0x200000001).answer = .ok 0 ∧
      (m.setDouble 0x2FFC 0x200000001).state =
        ((m.setWord 0x2FFC 1).state.setWord 0x3000 2).state ∧
      (m.setWord 0x3FFC 1).answer = .ok 0 ∧
      (m.setDouble 0x3FFC 0x200000001).state = m := by
  intro m
  have hlow : m.locate .write 0x2FFC 4 = .ok .data :=
    locate_eq_ok_iff.mpr (by decide +kernel)
  have hhigh : m.locate .write 0x3000 4 = .ok .stack :=
    locate_eq_ok_iff.mpr (by decide +kernel)
  have hlast : m.locate .write 0x3FFC 4 = .ok .stack :=
    locate_eq_ok_iff.mpr (by decide +kernel)
  have hzero (seg : Segment) (a : UInt32) : m.wordAt seg a = 0 :=
    congrArg (·.getD 0) (Image.word?_empty m.segments seg (m.segments.slot seg a))
  have hinside := double_word_is_two_words m 0x2FFC 0x200000001
  have hedge := double_word_is_two_words m 0x3FFC 0x200000001
  have hok : ∃ old, (m.setDouble 0x2FFC 0x200000001).answer = .ok old := by
    refine hinside.1.mpr ⟨by decide, ⟨0, ?_⟩, 0, ?_⟩
    · rw [setWord_of_locate (by decide) hlow, hzero]
    · exact congrArg Step.answer (setWord_of_locate (a := 0x3000) (by decide) hhigh 2) |>.trans
        (congrArg Except.ok (hzero .stack 0x3000))
  obtain ⟨old, hold⟩ := hok
  obtain ⟨low, high, hlowRaw, hhighRaw, -, -, rfl, hstate, -⟩ := hinside.2.2.1 old hold
  rw [rawWord_of_owner (by decide) (owner?_of_locate hlow (Nat.le_refl _) (by decide)),
    hzero] at hlowRaw
  change m.rawWord 0x3000 = _ at hhighRaw
  rw [rawWord_of_owner (by decide) (owner?_of_locate hhigh (Nat.le_refl _) (by decide)),
    hzero] at hhighRaw
  obtain rfl := Except.ok.inj hlowRaw
  obtain rfl := Except.ok.inj hhighRaw
  refine ⟨hold, hstate, by rw [setWord_of_locate (by decide) hlast, hzero], ?_⟩
  cases hanswer : (m.setDouble 0x3FFC 0x200000001).answer with
  | error fault => exact (hedge.2.1 fault hanswer).1
  | ok old =>
    obtain ⟨-, -, high, hhigh⟩ := hedge.1.mp ⟨old, hanswer⟩
    obtain ⟨-, seg, hseg⟩ := locate_of_setWord hhigh
    have hunowned : m.segments.owner? (0x3FFC + 4) = none := by decide +kernel
    exact nomatch hunowned.symm.trans (locate_eq_ok_iff.mp hseg).2.2.1

end Memory
end ArchState
