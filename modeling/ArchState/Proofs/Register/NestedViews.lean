import ArchState.Proofs.Register.Views

/-! # Views of views

A view may be a view of another view. A read follows the whole chain down to a register with
storage, and shows the bits of this register that all masks of the chain let through. A write goes
one view down only: below a view of a view there is a cell whose own word no read looks at, so that
what is written there is lost.
-/
namespace ArchState

/-- The word moved down by any number of places; the bits that fall below bit zero are lost. -/
def moveDown (w : UInt64) (n : Nat) : UInt64 := .ofBitVec (w.toBitVec >>> n)

def moveUp (w : UInt64) (n : Nat) : UInt64 := .ofBitVec (w.toBitVec <<< n)

def allBits : UInt64 := 0xFFFFFFFFFFFFFFFF

@[simp] theorem moveDown_zero (w : UInt64) : moveDown w 0 = w := by simp [moveDown]

@[simp] theorem moveUp_zero (w : UInt64) : moveUp w 0 = w := by simp [moveUp]

@[simp] theorem and_allBits (w : UInt64) : w &&& allBits = w := UInt64.and_neg_one

@[simp] theorem allBits_and (w : UInt64) : allBits &&& w = w := UInt64.neg_one_and

/-- What is seen of a register with storage: the bits of `mask`, moved down by `drop` places. -/
structure Sight (spec : BankSpec) where
  root : spec.Position
  mask : UInt64
  drop : Nat

namespace Sight
variable {spec : BankSpec}

def whole (root : spec.Position) : Sight spec := ⟨root, allBits, 0⟩

/-- What is left of a sight by a view of it. -/
def through (s : Sight spec) (mask : UInt64) : Sight spec :=
  ⟨s.root, s.mask &&& moveUp mask s.drop, s.drop + lowestBit mask⟩

/-- What is seen while the register at the root holds `w`. -/
def shown (s : Sight spec) (w : UInt64) : UInt64 := moveDown (w &&& s.mask) s.drop

/-- The bits, at their places in what is seen, that the root can change. -/
def width (s : Sight spec) : UInt64 := s.shown allBits

theorem shown_whole (root : spec.Position) (w : UInt64) : (whole root).shown w = w := by
  simp [whole, shown]

/-- A view of what is seen is what is seen through the view. -/
theorem field_shown (s : Sight spec) (mask w : UInt64) :
    field mask (s.shown w) = (s.through mask).shown w := by
  apply eq_of_getLsbD
  intro i hi
  simp only [field, shown, through, moveDown, moveUp, UInt64.toBitVec_and,
    UInt64.toBitVec_shiftRight, UInt64.toBitVec_ofBitVec, BitVec.ushiftRight_eq', shift_lowestBit,
    BitVec.getLsbD_and, BitVec.getLsbD_ushiftRight, BitVec.getLsbD_shiftLeft, Nat.add_assoc]
  by_cases hlt : s.drop + (lowestBit mask + i) < 64
  · have hge : ¬ s.drop + (lowestBit mask + i) < s.drop := by omega
    simp only [hlt, hge, Nat.add_sub_cancel_left, decide_true, decide_false, Bool.not_false,
      Bool.true_and, Bool.and_assoc]
  · -- the word ends below this bit
    simp only [BitVec.getLsbD_of_ge _ _ (Nat.le_of_not_lt hlt), Bool.false_and]

theorem mask_through_whole (root : spec.Position) (mask : UInt64) :
    ((whole root).through mask).mask = mask := by
  simp [whole, through]

theorem width_through_whole (root : spec.Position) (mask : UInt64) :
    ((whole root).through mask).width = field mask mask := by
  rw [width, ← field_shown, shown_whole, field, field, allBits_and, UInt64.and_self]

end Sight

namespace BankSpec
variable {spec : BankSpec} {n : Nat} {i v : spec.Position} {s : Sight spec}

/-- The cell is at the top of a chain of `n` views, through which `s` is seen. -/
inductive Chain (spec : BankSpec) : Nat → spec.Position → Sight spec → Prop where
  | root {p : spec.Position} : spec.isView p = false → Chain spec 0 p (.whole p)
  | view {n : Nat} {base v : spec.Position} {mask : UInt64} {s : Sight spec} :
      (spec.cell v).kind = .view base mask → Chain spec n base s →
      Chain spec (n + 1) v (s.through mask)

/-- Whether a cell is a view of a view. -/
def isNested (spec : BankSpec) (i : spec.Position) : Bool := spec.isView (spec.owner i)

theorem isView_iff : spec.isView i = true ↔ ∃ base mask, (spec.cell i).kind = .view base mask := by
  cases hk : (spec.cell i).kind with
  | view base mask => simp [isView, hk]
  | plain | masked mask | readOnly => simp [isView, hk]

/-- Every cell is at the top of a chain. -/
theorem exists_chain (i : spec.Position) : ∃ n s, spec.Chain n i s := by
  induction hi : i.val using Nat.strongRecOn generalizing i with
  | ind k ih =>
    cases hview : spec.isView i with
    | false => exact ⟨0, _, .root hview⟩
    | true =>
      obtain ⟨base, mask, hk⟩ := isView_iff.mp hview
      have hbase := spec.base_lt hk
      obtain ⟨n, s, hchain⟩ := ih base (hi ▸ hbase) (spec.basePosition i base hbase) rfl
      exact ⟨n + 1, _, .view hk hchain⟩

theorem Chain.isView_eq (h : spec.Chain n v s) : spec.isView v = decide (0 < n) := by
  cases h with
  | root hp => exact hp
  | view hk _ => simp [isView, hk]

theorem Chain.isNested_eq (h : spec.Chain (n + 1) v s) : spec.isNested v = decide (0 < n) := by
  cases h with
  | view hk hbase => rw [isNested, owner_of_view hk, ← hbase.isView_eq]; rfl

theorem kind_of_isNested (h : spec.isNested i = true) :
    ∃ base, (spec.cell i).kind = .view base (spec.window i) := by
  cases hview : spec.isView i with
  | true =>
    obtain ⟨base, mask, hk⟩ := isView_iff.mp hview
    exact ⟨base, by rw [window, hk]⟩
  | false =>
    rw [isNested, owner_of_not_view hview, hview] at h
    cases h

/-- A chain shows what is seen of its root. -/
theorem Chain.look (h : spec.Chain n v s) (store : Vector UInt64 spec.size) :
    spec.look store v = s.shown (spec.look store s.root) := by
  induction h with
  | root hp => exact (Sight.shown_whole _ _).symm
  | view hk hbase ih =>
    rw [look_of_view hk, ← Sight.field_shown]
    exact congrArg _ ih

end BankSpec

/-- What writing `value` through a view makes of a word. -/
def CellRequest.writtenThrough (mask old : UInt64) : CellRequest → UInt64
  | set value | backdoor value => setField mask old value
  | _ => old

namespace Bank
variable {spec : BankSpec} {n : Nat} {p v : spec.Position} {s : Sight spec}

theorem read_chain (h : spec.Chain n v s) (b : Bank spec) :
    b.read v = s.shown (b.read s.root) := h.look b.values

/-- A write of `value` to the top of a chain, which answered `answer` and left the bank `n`, stored
the value where the chain reads. -/
structure StoredThrough (b : Bank spec) (v : spec.Position) (s : Sight spec)
    (value answer : UInt64) (n : Bank spec) : Prop where
  answered : answer = b.read v
  shown : n.read v = value &&& s.width
  kept : n.read s.root &&& ~~~s.mask = b.read s.root &&& ~~~s.mask

/-- A write to the top of a chain was lost. -/
structure LostWrite (b : Bank spec) (v : spec.Position) (s : Sight spec)
    (value answer : UInt64) (n : Bank spec) : Prop where
  /-- All cells show what they have shown. -/
  unseen : ∀ i, n.read i = b.read i
  /-- The answer comes from the word of the cell below. -/
  answered : answer = field (spec.window v) (b.values.get (spec.owner v))
  stored_iff : b.StoredThrough v s value answer n ↔
    answer = b.read v ∧ b.read v = value &&& s.width

theorem read_store_of_isNested (h : spec.isNested v = true) (b : Bank spec) (guarded : Bool)
    (value : UInt64) (i : spec.Position) : (b.store v guarded value).2.read i = b.read i := by
  refine BankSpec.look_congr (fun j hj => ?_) i
  have hne : spec.owner v ≠ j := by
    rintro rfl
    rw [← BankSpec.isNested, h] at hj
    cases hj
  rw [get_store, if_neg hne]

theorem lostWrite_store (h : spec.Chain (n + 2) v s) (b : Bank spec) (guarded : Bool)
    (value : UInt64) :
    b.LostWrite v s value (b.store v guarded value).1 (b.store v guarded value).2 := by
  have hnested : spec.isNested v = true := by simp [h.isNested_eq]
  have hunseen := read_store_of_isNested hnested b guarded value
  have hanswer : (b.store v guarded value).1 =
      field (spec.window v) (b.values.get (spec.owner v)) := by
    cases h with
    | view hk hbase =>
      have hstore : (b.store v guarded value).1 =
          spec.previous v (b.values.get (spec.owner v)) := rfl
      rw [hstore, BankSpec.previous, BankSpec.window, hk]
  refine ⟨hunseen, hanswer, ?_⟩
  constructor
  · intro hstored
    exact ⟨hstored.answered, by rw [← hunseen, hstored.shown]⟩
  · rintro ⟨hold, hfits⟩
    exact ⟨hold, by rw [hunseen, hfits], by rw [hunseen]⟩

/-- One view down, a write reaches the storage that the view reads. -/
theorem storedThrough_store (h : spec.Chain 1 v s) (b : Bank spec) (guarded : Bool)
    (value : UInt64) :
    b.StoredThrough v s value (b.store v guarded value).1 (b.store v guarded value).2 := by
  cases h with
  | @view _ p _ mask _ hv hroot =>
    cases hroot with
    | root hp =>
      have hwritten := store_view hp hv b guarded value
      obtain ⟨shift, hplace, hshown⟩ := hwritten.shown
      obtain rfl := isLowestBit_iff.mp hplace
      refine ⟨hwritten.answered, ?_, ?_⟩
      · rw [hshown, Sight.width_through_whole, field, UInt64.and_self]
      · rw [Sight.mask_through_whole]
        exact hwritten.kept

/-- Requests to views of views are not noticed in what cells show. -/
theorem read_serveAll_of_filter (b : Bank spec) (run : List (spec.Position × CellRequest))
    (i : spec.Position) :
    (b.serveAll run).read i = (b.serveAll (run.filter fun r => !spec.isNested r.1)).read i := by
  refine BankSpec.look_congr (fun p hp => ?_) i
  have hsame : (run.filter fun r => !spec.isNested r.1).filter (fun r => spec.owner r.1 = p) =
      run.filter fun r => spec.owner r.1 = p := by
    rw [List.filter_filter]
    refine List.filter_congr fun r _ => ?_
    by_cases howner : spec.owner r.1 = p
    · simp [BankSpec.isNested, howner, hp]
    · simp [howner]
  have hheld := holding_serveAll hp b run
  rw [← hsame, ← holding_serveAll hp] at hheld
  exact congrArg Holding.value hheld

theorem get_store_of_isView (hp : spec.isView p = true) (b : Bank spec) (i : spec.Position)
    (guarded : Bool) (value : UInt64) :
    (b.store i guarded value).2.values.get p =
      if spec.owner i = p then setField (spec.window i) (b.values.get p) value
      else b.values.get p := by
  rw [get_store]
  by_cases howner : spec.owner i = p
  · obtain ⟨base, hk⟩ := BankSpec.kind_of_isNested (i := i) (by rw [BankSpec.isNested, howner, hp])
    rw [if_pos howner, if_pos howner, BankSpec.stored, hk]
  · rw [if_neg howner, if_neg howner]

/-- The word of a view changes by writes through views of it alone. -/
theorem get_values_serve_of_isView (hp : spec.isView p = true) (b : Bank spec) (i : spec.Position)
    (request : CellRequest) :
    (b.serve i request).state.values.get p =
      if spec.owner i = p then request.writtenThrough (spec.window i) (b.values.get p)
      else b.values.get p := by
  cases request with
  | set value =>
    cases hro : spec.isReadOnly i with
    | false =>
      have hset : (b.serve i (.set value)).state = (b.store i true value).2 := by
        simp only [serve, Step.map, set_of_writable hro]
      rw [hset]
      exact get_store_of_isView hp b i true value
    | true =>
      have hkept : (b.serve i (.set value)).state = b := by
        simp [serve, set, hro, Step.map, Step.quiet]
      have hi : spec.owner i ≠ p := by
        rintro rfl
        obtain ⟨base, hk⟩ := BankSpec.kind_of_isNested hp
        simp [BankSpec.isReadOnly, hk] at hro
      rw [hkept, if_neg hi]
  | backdoor value => exact get_store_of_isView hp b i false value
  | reset => exact (b.values_reset_of_view hp).trans (ite_self _).symm
  | changeReset value | observe id | unobserve id | unobserveAll => exact (ite_self _).symm

theorem get_values_serveAll_of_isView (hp : spec.isView p = true) (b : Bank spec)
    (run : List (spec.Position × CellRequest)) :
    (b.serveAll run).values.get p =
      (run.filter fun r => spec.owner r.1 = p).foldl
        (fun w r => r.2.writtenThrough (spec.window r.1) w) (b.values.get p) := by
  induction run generalizing b with
  | nil => rfl
  | cons r run ih =>
    have hstep : b.serveAll (r :: run) = (b.serve r.1 r.2).state.serveAll run := rfl
    rw [hstep, ih, get_values_serve_of_isView hp]
    by_cases howner : spec.owner r.1 = p
    · simp [howner]
    · simp [howner]

/-- In the state after any run a cell shows what is seen of its root through the chain of views
below it, and requests to views of views have made no difference to that. A write one view down is
stored where the chain reads. A write to a view of a view is lost, and answers what other writes
that were lost have left in the word of the cell below. -/
theorem nested_views_lose_writes (h : spec.Chain (n + 1) v s) (b : Bank spec)
    (run : List (spec.Position × CellRequest)) (value : UInt64) :
    let c := b.serveAll run
    c.read v = s.shown (c.read s.root) ∧
      (∀ i, c.read i = (b.serveAll (run.filter fun r => !spec.isNested r.1)).read i) ∧
      (n = 0 → c.StoredThrough v s value (c.set v value).answer (c.set v value).state ∧
        c.StoredThrough v s value (c.backdoor v value).1 (c.backdoor v value).2) ∧
      (0 < n → c.LostWrite v s value (c.set v value).answer (c.set v value).state ∧
        c.LostWrite v s value (c.backdoor v value).1 (c.backdoor v value).2 ∧
        c.values.get (spec.owner v) =
          (run.filter fun r => spec.owner r.1 = spec.owner v).foldl
            (fun w r => r.2.writtenThrough (spec.window r.1) w) (b.values.get (spec.owner v))) := by
  intro c
  have hwritable : spec.isReadOnly v = false := by
    cases h with
    | view hk _ => rw [BankSpec.isReadOnly, hk]; rfl
  rw [set_of_writable hwritable]
  refine ⟨read_chain h c, read_serveAll_of_filter b run, ?_, fun hn => ?_⟩
  · rintro rfl
    exact ⟨storedThrough_store h c true value, storedThrough_store h c false value⟩
  · obtain ⟨n, rfl⟩ := Nat.exists_eq_add_of_lt hn
    have hview : spec.isView (spec.owner v) = true := by
      rw [← BankSpec.isNested, h.isNested_eq]
      simp
    refine ⟨lostWrite_store h c true value, lostWrite_store h c false value, ?_⟩
    exact get_values_serveAll_of_isView hview b run

/-- A register, a view of its second byte and a view of the upper half of this byte. -/
def towered : BankSpec where
  cells := #[⟨"word", 0, .plain⟩, ⟨"byte", 1, .view 0 0xFF00⟩, ⟨"digit", 2, .view 1 0xF0⟩]
  grounded := by decide

namespace Towered

def word : towered.Position := ⟨0, by decide⟩

def byte : towered.Position := ⟨1, by decide⟩

def digit : towered.Position := ⟨2, by decide⟩

def start : Bank towered := .initial (Vector.replicate _ 0)

def digitSight : Sight towered := ((Sight.whole word).through 0xFF00).through 0xF0

theorem chain_digit : towered.Chain 2 digit digitSight := by
  have hdigit : (towered.cell digit).kind = .view byte 0xF0 := rfl
  have hbyte : (towered.cell byte).kind = .view word 0xFF00 := rfl
  exact .view hdigit (.view hbyte (.root rfl))

end Towered

open Towered in
/-- After a write to the digit was lost, another one answers it and not what the digit shows. -/
theorem digit_answers_lost_write :
    let c := start.serveAll [(word, .set 0x1234), (digit, .set 0xF)]
    towered.Chain 2 digit digitSight ∧ c.read digit = 1 ∧ (c.set digit 6).answer = 0xF ∧
      (c.set digit 6).state.read digit = 1 := by
  intro c
  obtain ⟨hread, hfilter, -, hlost⟩ := nested_views_lose_writes chain_digit start
    [(word, .set 0x1234), (digit, .set 0xF)] 6
  obtain ⟨hset, -, hleft⟩ := hlost (by decide)
  have hroot : c.read word = 0x1234 := (hfilter word).trans (by decide +kernel)
  have hdigit : c.read digit = 1 := by
    have hshown : digitSight.shown 0x1234 = 1 := by decide
    exact (hread.trans (congrArg digitSight.shown hroot)).trans hshown
  refine ⟨chain_digit, hdigit, ?_, ?_⟩
  · rw [hset.answered, hleft]
    decide +kernel
  · rw [hset.unseen, hdigit]

open Towered in
/-- A write to a view of a view is not shown afterwards, although it fits into what is seen of the
register at the end of the chain. -/
theorem digit_misses_write :
    towered.Chain 2 digit digitSight ∧ 5 &&& digitSight.width = 5 ∧
      (start.set digit 5).state.read digit = 0 ∧
      ¬ start.StoredThrough digit digitSight 5 (start.set digit 5).answer
        (start.set digit 5).state := by
  have hwritable : towered.isReadOnly digit = false := by decide
  have hlost : start.LostWrite digit digitSight 5 (start.set digit 5).answer
      (start.set digit 5).state := by
    rw [set_of_writable hwritable]
    exact lostWrite_store chain_digit start true 5
  have hbefore : start.read digit = 0 := by decide +kernel
  have hafter : (start.set digit 5).state.read digit = 0 := by rw [hlost.unseen, hbefore]
  have hwidth : 5 &&& digitSight.width = 5 := by decide
  refine ⟨chain_digit, hwidth, hafter, fun hstored => ?_⟩
  have hshown := hstored.shown
  rw [hafter, hwidth] at hshown
  cases hshown

end Bank
end ArchState
