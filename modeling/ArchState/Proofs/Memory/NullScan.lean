import ArchState.Proofs.Memory.Marks

/-! # Where the search for a null word ends

The search passes words that are below the limit and not null. What it answers is determined by the
place that it comes to in this way: a null word, an address that is not below the limit, a word that
no segment owns, which is a fault, or the last word of the address space. The last word is answered
even if it is below the limit and not null, since no address comes after it.
-/
namespace ArchState.Memory
variable {m : Memory} {made : List MemoryRequest} {base limit a b : UInt32}
  {x y : Except AddressFault UInt32}

/-- Whether the word at `a` has an owner and is not null. -/
def Written (m : Memory) (a : UInt32) : Prop := ∃ w, m.rawWord? a = .ok (some w)

/-- Whether a search from `base` on comes to the word at `a`. -/
structure Reaches (m : Memory) (base limit a : UInt32) : Prop where
  aligned : a.toNat % 4 = 0
  le : base ≤ a
  passed : ∀ b : UInt32, b.toNat % 4 = 0 → base ≤ b → b < a → b < limit ∧ m.Written b

def lastWord : UInt32 := 0xFFFFFFFC

/-- The places where a search does not go on. -/
def EndsAt (m : Memory) (limit a : UInt32) : Except AddressFault UInt32 → Prop
  | .ok r => r = a ∧ (limit ≤ a ∨ m.rawWord? a = .ok none ∨ a = lastWord ∧ m.Written a)
  | .error fault =>
    fault = ⟨.read, .outOfRange, a⟩ ∧ a < limit ∧ m.segments.owner? a = none

/-- Whether `x` is what a search from `base` on answers. -/
def Finds (m : Memory) (base limit : UInt32) (x : Except AddressFault UInt32) : Prop :=
  ∃ a, m.Reaches base limit a ∧ m.EndsAt limit a x

/-- The search as far as it gets by looking at some number of words. -/
def firstNullWithin (m : Memory) (limit : UInt32) :
    Nat → UInt32 → Option (Except AddressFault UInt32)
  | 0, a => if a < limit then none else some (.ok a)
  | words + 1, a =>
    if a < limit then
      match m.rawWord? a with
      | .error fault => some (.error fault)
      | .ok none => some (.ok a)
      | .ok (some _) =>
        if a.toNat + 4 < 0x100000000 then m.firstNullWithin limit words (a + 4) else some (.ok a)
    else some (.ok a)

theorem rawWord?_of_unowned (ha : a.toNat % 4 = 0) (h : m.segments.owner? a = none) :
    m.rawWord? a = .error ⟨.read, .outOfRange, a⟩ := by
  rw [rawWord?, checkAligned, if_pos ha, h]
  rfl

theorem rawWord?_of_owner {seg : Segment} (ha : a.toNat % 4 = 0)
    (h : m.segments.owner? a = some seg) : m.rawWord? a = .ok (m.wordAt? seg a) := by
  rw [rawWord?, checkAligned, if_pos ha, h]
  rfl

theorem rawWord?_eq_error_iff (ha : a.toNat % 4 = 0) {fault : AddressFault} :
    m.rawWord? a = .error fault ↔
      m.segments.owner? a = none ∧ fault = ⟨.read, .outOfRange, a⟩ := by
  cases howner : m.segments.owner? a with
  | none => simp [rawWord?_of_unowned ha howner, eq_comm]
  | some seg => simp [rawWord?_of_owner ha howner]

/-- The words that are not null are those that requests have touched since the memory was
emptied. -/
theorem written_iff_touched (h : Past m made) (ha : a.toNat % 4 = 0) :
    m.Written a ↔
      ∃ seg, m.segments.owner? a = some seg ∧ ∃ request ∈ made, request.touches seg a := by
  cases howner : m.segments.owner? a with
  | none => simp [Written, rawWord?_of_unowned ha howner]
  | some seg =>
    have hnull := null_iff_untouched h howner
    have hwritten : m.Written a ↔ m.wordAt? seg a ≠ none := by
      simp [Written, rawWord?_of_owner ha howner, Option.ne_none_iff_exists']
    simp [hwritten, hnull]

theorem Reaches.start (ha : a.toNat % 4 = 0) : m.Reaches a limit a where
  aligned := ha
  le := UInt32.le_refl a
  passed _ _ hle hlt := absurd hlt (UInt32.not_lt.mpr hle)

/-- A word that is below the limit and not null is passed. -/
theorem Reaches.next (h : m.Reaches base limit a) (hlimit : a < limit) (hwritten : m.Written a)
    (hfits : a.toNat + 4 < 0x100000000) : m.Reaches base limit (a + 4) := by
  obtain ⟨haligned, hle, hpassed⟩ := h
  have hnext : (a + 4).toNat = a.toNat + 4 := toNat_add_ofNat (k := 4) hfits
  refine ⟨by omega, ?_, ?_⟩
  · rw [UInt32.le_iff_toNat_le] at hle ⊢
    omega
  · intro b hb hbase hlt
    by_cases hba : b < a
    · exact hpassed b hb hbase hba
    · -- between the two addresses only `a` is one of a word
      obtain rfl : b = a := by
        rw [UInt32.lt_iff_toNat_lt] at hlt hba
        exact UInt32.toNat_inj.mp (by omega)
      exact ⟨hlimit, hwritten⟩

theorem finds_of_reaches (m : Memory) (base a limit : UInt32) (h : m.Reaches base limit a) :
    m.Finds base limit (m.firstNull a limit) := by
  fun_induction firstNull m a limit with
  | case1 a hlimit fault hfault =>
    obtain ⟨howner, rfl⟩ := (rawWord?_eq_error_iff h.aligned).mp hfault
    exact ⟨a, h, rfl, hlimit, howner⟩
  | case2 a hlimit hnull => exact ⟨a, h, rfl, .inr (.inl hnull)⟩
  | case3 a hlimit w hword hfits ih => exact ih (h.next hlimit ⟨w, hword⟩ hfits)
  | case4 a hlimit w hword hfits =>
    have hlast : a = lastWord := by
      have haligned := h.aligned
      have hlt := a.toNat_lt
      have hvalue : lastWord.toNat = 0xFFFFFFFC := rfl
      exact UInt32.toNat_inj.mp (by omega)
    exact ⟨a, h, rfl, .inr (.inr ⟨hlast, w, hword⟩)⟩
  | case5 a hlimit => exact ⟨a, h, rfl, .inl (UInt32.not_lt.mp hlimit)⟩

/-- No word after the place where a search ends is reached. -/
theorem EndsAt.not_lt (h : m.EndsAt limit a x) (ha : a.toNat % 4 = 0) (hle : base ≤ a)
    (hb : m.Reaches base limit b) : ¬ a < b := by
  intro hlt
  obtain ⟨hlimit, w, hword⟩ := hb.passed a ha hle hlt
  cases x with
  | ok r =>
    obtain ⟨-, hend⟩ := h
    rcases hend with hend | hnull | ⟨rfl, -⟩
    · exact UInt32.not_lt.mpr hend hlimit
    · simp [hnull] at hword
    · have haligned := hb.aligned
      have hfits := b.toNat_lt
      rw [UInt32.lt_iff_toNat_lt, show lastWord.toNat = 0xFFFFFFFC from rfl] at hlt
      omega
  | error fault =>
    obtain ⟨-, -, howner⟩ := h
    simp [rawWord?_of_unowned ha howner] at hword

theorem EndsAt.unique (ha : a.toNat % 4 = 0) (hx : m.EndsAt limit a x) (hy : m.EndsAt limit a y) :
    x = y := by
  have hmixed : ∀ r fault, m.EndsAt limit a (.ok r) → ¬ m.EndsAt limit a (.error fault) := by
    rintro r fault ⟨-, hend⟩ ⟨-, hlimit, howner⟩
    have hraw := rawWord?_of_unowned ha howner
    rcases hend with hend | hnull | ⟨-, w, hword⟩
    · exact UInt32.not_lt.mpr hend hlimit
    · simp [hraw] at hnull
    · simp [hraw] at hword
  cases x with
  | ok r =>
    cases y with
    | ok s => rw [hx.1, hy.1]
    | error fault => exact absurd hy (hmixed r fault hx)
  | error fault =>
    cases y with
    | ok s => exact absurd hx (hmixed s fault hy)
    | error other => rw [hx.1, hy.1]

theorem Finds.unique (hx : m.Finds base limit x) (hy : m.Finds base limit y) : x = y := by
  obtain ⟨a, ha, hxa⟩ := hx
  obtain ⟨b, hb, hyb⟩ := hy
  have hab := hxa.not_lt ha.aligned ha.le hb
  have hba := hyb.not_lt hb.aligned hb.le ha
  obtain rfl : a = b := UInt32.le_antisymm (UInt32.not_lt.mp hba) (UInt32.not_lt.mp hab)
  exact EndsAt.unique ha.aligned hxa hyb

theorem firstNullWithin_eq (m : Memory) {words : Nat} (h : limit.toNat ≤ a.toNat + 4 * words) :
    m.firstNullWithin limit words a = some (m.firstNull a limit) := by
  induction words generalizing a with
  | zero =>
    have hlimit : ¬ a < limit := by
      rw [UInt32.lt_iff_toNat_lt]
      omega
    rw [firstNullWithin, firstNull, if_neg hlimit, if_neg hlimit]
  | succ words ih =>
    rw [firstNullWithin, firstNull]
    by_cases hlimit : a < limit
    · rw [if_pos hlimit, if_pos hlimit]
      cases hword : m.rawWord? a with
      | error fault => rfl
      | ok content =>
        cases content with
        | none => rfl
        | some w =>
          dsimp only
          by_cases hfits : a.toNat + 4 < 0x100000000
          · have hnext : (a + 4).toNat = a.toNat + 4 := toNat_add_ofNat (k := 4) hfits
            rw [if_pos hfits, if_pos hfits, ih (by omega)]
          · rw [if_neg hfits, if_neg hfits]
    · rw [if_neg hlimit, if_neg hlimit]

theorem firstNull_eq_iff (hbase : base.toNat % 4 = 0) :
    m.firstNull base limit = x ↔ m.Finds base limit x := by
  have hfinds := m.finds_of_reaches base base limit (.start hbase)
  constructor
  · rintro rfl
    exact hfinds
  · exact hfinds.unique

theorem past_storeBytes (h : Past m made) {seg : Segment} {length : Nat}
    (hlocate : m.locate .write a length = .ok seg) (id : ObserverId) (d : UInt64) :
    Past (m.serve id (.store (.bytes length) a d)).state (.store (.bytes length) a d :: made) := by
  have hpast := Past.served id (.store (.bytes length) a d) h
  rw [answer_storeBytes hlocate id d] at hpast
  exact hpast

/-- After one store into a new memory the words that it covers are the ones that are not null. -/
theorem written_after_store {l : Layout} {seg : Segment} {length : Nat}
    (hlocate : (ofLayout l).locate .write a length = .ok seg) (id : ObserverId) (d : UInt64)
    (hb : b.toNat % 4 = 0) :
    ((ofLayout l).serve id (.store (.bytes length) a d)).state.Written b ↔
      ((Segments.ofLayout l).owner? b).isSome = true ∧
        ∃ i < length, (a.toNat + i) / 4 = b.toNat / 4 := by
  have hlayout : ((ofLayout l).serve id (.store (.bytes length) a d)).state.layout = l :=
    layout_serve _ _ rfl
  rw [written_iff_touched (past_storeBytes (.created l) hlocate id d) hb, segments, hlayout]
  simp [MemoryRequest.touches, MemoryRequest.writes, StoreRequest.touches, AccessKind.size,
    Option.isSome_iff_exists]

theorem null_of_not_written (ha : a.toNat % 4 = 0) (howner : (m.segments.owner? a).isSome = true)
    (h : ¬ m.Written a) : m.rawWord? a = .ok none := by
  obtain ⟨seg, hseg⟩ := Option.isSome_iff_exists.mp howner
  rw [rawWord?_of_owner ha hseg]
  cases hword : m.wordAt? seg a with
  | none => rfl
  | some w => exact absurd ⟨w, by rw [rawWord?_of_owner ha hseg, hword]⟩ h

/-- A search that starts at a word ends after it has looked at the words below the limit at most. It
answers the one place that it can end at: it has passed words only that are not null, and there
is a null word, no word below the limit, a word without an owner, or the last word of the address
space. Nothing but that last word is answered below the limit if no word is null there. -/
theorem first_null_found (h : Past m made) (hbase : base.toNat % 4 = 0) (limit : UInt32) :
    m.firstNullWithin limit ((limit.toNat - base.toNat + 3) / 4) base =
        some (m.firstNull base limit) ∧
      (∀ x, m.firstNull base limit = x ↔ m.Finds base limit x) ∧
      (∀ a : UInt32, a.toNat % 4 = 0 → (m.Written a ↔
        ∃ seg, m.segments.owner? a = some seg ∧ ∃ request ∈ made, request.touches seg a)) ∧
      ((∀ a : UInt32, a.toNat % 4 = 0 → base ≤ a → a < limit → m.Written a) →
        ∃ r, m.firstNull base limit = .ok r ∧ (limit ≤ r ∨ r = lastWord)) := by
  refine ⟨m.firstNullWithin_eq (by omega), fun x => firstNull_eq_iff hbase,
    fun a ha => written_iff_touched h ha, ?_⟩
  intro hfull
  obtain ⟨a, hreaches, hends⟩ := (firstNull_eq_iff hbase).mp (rfl : m.firstNull base limit = _)
  have hwritten : a < limit → m.Written a := hfull a hreaches.aligned hreaches.le
  cases hx : m.firstNull base limit with
  | ok r =>
    rw [hx] at hends
    obtain ⟨rfl, hend⟩ := hends
    refine ⟨r, rfl, ?_⟩
    rcases hend with hend | hnull | ⟨hlast, -⟩
    · exact .inl hend
    · refine .inl (UInt32.not_lt.mp fun hlimit => ?_)
      obtain ⟨w, hword⟩ := hwritten hlimit
      simp [hnull] at hword
    · exact .inr hlast
  | error fault =>
    rw [hx] at hends
    obtain ⟨-, hlimit, howner⟩ := hends
    obtain ⟨w, hword⟩ := hwritten hlimit
    simp [rawWord?_of_unowned hreaches.aligned howner] at hword

/-- After a store over the end of a word the search passes the two words, up to the next one or to
a limit that it comes to before. -/
theorem null_found_behind_store :
    let m := ((ofLayout .compactTextAtZero).serve ⟨1⟩ (.store (.bytes 4) 0x1002 7)).state
    Past m [.store (.bytes 4) 0x1002 7] ∧ (0x1000 : UInt32).toNat % 4 = 0 ∧
      m.firstNull 0x1000 0x1040 = .ok 0x1008 ∧ m.firstNull 0x1000 0x1002 = .ok 0x1004 := by
  intro m
  have hbase : (0x1000 : UInt32).toNat % 4 = 0 := by decide
  have hlocate : (ofLayout .compactTextAtZero).locate .write 0x1002 4 = .ok .data := by rfl
  have hpast : Past m [.store (.bytes 4) 0x1002 7] :=
    past_storeBytes (.created .compactTextAtZero) hlocate ⟨1⟩ 7
  have hwritten : ∀ {a : UInt32}, a.toNat % 4 = 0 → (m.Written a ↔
      ((Segments.ofLayout .compactTextAtZero).owner? a).isSome = true ∧
        ∃ i < 4, (0x1002 + i) / 4 = a.toNat / 4) := fun ha =>
    written_after_store hlocate ⟨1⟩ 7 ha
  have hfirst : m.Written 0x1000 := (hwritten (by decide)).mpr ⟨by decide +kernel, 0, by decide⟩
  have hsecond : m.Written 0x1004 := (hwritten (by decide)).mpr ⟨by decide +kernel, 2, by decide⟩
  have hthird : m.rawWord? 0x1008 = .ok none := by
    refine null_of_not_written (by decide) ?_ fun h => ?_
    · rw [segments, show m.layout = .compactTextAtZero from layout_serve _ _ rfl]
      decide +kernel
    · exact absurd ((hwritten (by decide)).mp h).2 (by decide)
  -- both searches pass the first word, and the longer one the second word as well
  have hpassed : ∀ limit, 0x1000 < limit → m.Reaches 0x1000 limit 0x1004 := fun limit hlimit =>
    (Reaches.start (by decide)).next hlimit hfirst (by decide)
  have hbehind : m.Reaches 0x1000 0x1040 0x1008 :=
    (hpassed 0x1040 (by decide)).next (by decide) hsecond (by decide)
  refine ⟨hpast, hbase, ?_, ?_⟩
  · exact ((first_null_found hpast hbase 0x1040).2.1 _).mpr
      ⟨0x1008, hbehind, rfl, .inr (.inl hthird)⟩
  · exact ((first_null_found hpast hbase 0x1002).2.1 _).mpr
      ⟨0x1004, hpassed 0x1002 (by decide), rfl, .inl (by decide)⟩

/-- With its last word written, the search in the default layout answers this word, which is neither
null nor past the limit. -/
theorem written_word_found_below_limit :
    let m := ((ofLayout .default).serve ⟨1⟩ (.store (.bytes 4) 0xFFFFFFFC 7)).state
    Past m [.store (.bytes 4) 0xFFFFFFFC 7] ∧
      (∀ a : UInt32, a.toNat % 4 = 0 → 0xFFFFFFFC ≤ a → a < 0xFFFFFFFF → m.Written a) ∧
      m.firstNull 0xFFFFFFFC 0xFFFFFFFF = .ok 0xFFFFFFFC ∧
      (0xFFFFFFFC : UInt32) < 0xFFFFFFFF ∧ m.rawWord? 0xFFFFFFFC ≠ .ok none := by
  intro m
  have hlocate : (ofLayout .default).locate .write 0xFFFFFFFC 4 = .ok .mmio := by rfl
  have hpast : Past m [.store (.bytes 4) 0xFFFFFFFC 7] :=
    past_storeBytes (.created .default) hlocate ⟨1⟩ 7
  have hwritten : m.Written 0xFFFFFFFC :=
    (written_after_store hlocate ⟨1⟩ 7 (by decide)).mpr ⟨by decide +kernel, 0, by decide⟩
  refine ⟨hpast, ?_, ?_, by decide, ?_⟩
  · intro a ha hle _
    have hlt := a.toNat_lt
    rw [UInt32.le_iff_toNat_le] at hle
    change 0xFFFFFFFC ≤ a.toNat at hle
    obtain rfl : a = 0xFFFFFFFC := by
      rw [← UInt32.toNat_inj]
      change a.toNat = 0xFFFFFFFC
      omega
    exact hwritten
  · exact (firstNull_eq_iff (by decide)).mpr
      ⟨0xFFFFFFFC, .start (by decide), rfl, .inr (.inr ⟨rfl, hwritten⟩)⟩
  · obtain ⟨w, hword⟩ := hwritten
    simp [hword]

end ArchState.Memory
