import ArchState.Proofs.Machine.Sending
import ArchState.Proofs.Register.Protection

/-! # Setting and clearing bits

Bits of a control register are set and cleared by writing what the register shows with these bits
changed. A write changes the bits of a cell that can be written and keeps the other ones, be the
cell plain, masked or a view, and so exactly these bits of an operand matter. A field does not leak
into the field beside it.
-/
namespace ArchState

/-- The word `old` with the bits of `mask` taken from `value`. -/
def overlaid (mask old value : UInt64) : UInt64 := (value &&& mask) ||| (old &&& ~~~mask)

theorem overlaid_allBits (old value : UInt64) : overlaid allBits old value = value := by
  have hrest : ~~~allBits = 0 := by decide
  simp [overlaid, hrest]

theorem overlaid_zero (old value : UInt64) : overlaid 0 old value = old := by simp [overlaid]

theorem overlaid_and (mask old value : UInt64) :
    overlaid mask old value &&& mask = value &&& mask := by
  rw [overlaid, or_and_distrib]
  simp [UInt64.and_assoc]

/-- A word is put together from its bits in a mask and its other bits. -/
theorem overlaid_of_and_eq {mask old value : UInt64} (h : value &&& mask = old &&& mask) :
    overlaid mask old value = old := by
  have hbit : ∀ o w : Bool, (o && w || o && !w) = o := by decide
  rw [overlaid, h]
  apply eq_of_getLsbD
  intro i hi
  simp [hi, hbit]

/-- Of bits that are set in a word, only those count that are taken over. -/
theorem overlaid_or (mask old m : UInt64) :
    overlaid mask old (old ||| m) = old ||| (m &&& mask) := by
  have hbit : ∀ o m w : Bool, ((o || m) && w || o && !w) = (o || m && w) := by decide
  apply eq_of_getLsbD
  intro i hi
  simp [overlaid, hi, hbit]

theorem overlaid_and_not (mask old m : UInt64) :
    overlaid mask old (old &&& ~~~m) = old &&& ~~~(m &&& mask) := by
  have hbit : ∀ o m w : Bool, (o && !m && w || o && !w) = (o && !(m && w)) := by decide
  apply eq_of_getLsbD
  intro i hi
  simp [overlaid, hi, hbit]

/-- A field shows nothing beyond its width. -/
theorem field_and_width (mask w : UInt64) : field mask w &&& field mask mask = field mask w := by
  have hagain := field_setField mask (setField mask w 0) (field mask w)
  rw [setField_field] at hagain
  exact hagain.symm

/-- Two words with the same field have the same bits there. -/
theorem and_eq_of_field_eq {mask w other : UInt64} (h : field mask w = field mask other) :
    w &&& mask = other &&& mask := by
  rw [← setField_field_and mask 0 w, h, setField_field_and]

/-- A field that is set to what it shows makes no difference. -/
theorem setField_of_and_eq {mask old value : UInt64}
    (h : value &&& field mask mask = field mask old) : setField mask old value = old := by
  have hshown : field mask (setField mask old value) = field mask old := by rw [field_setField, h]
  have hrest : setField mask old value &&& ~~~mask = old &&& ~~~mask :=
    setField_and_of_disjoint (by simp) old value
  calc setField mask old value
      = overlaid mask (setField mask old value) old :=
        (overlaid_of_and_eq (and_eq_of_field_eq hshown).symm).symm
    _ = overlaid mask old old := by rw [overlaid, hrest, overlaid]
    _ = old := overlaid_of_and_eq rfl

namespace BankSpec
variable {spec : BankSpec} {i : spec.Position}

/-- The bits that ordinary writes to a cell can change, at their places in what the cell shows. -/
def writable (spec : BankSpec) (i : spec.Position) : UInt64 :=
  match (spec.cell i).kind with
  | .plain => allBits
  | .masked mask => ~~~mask
  | .readOnly => 0
  | .view _ mask => field mask mask

theorem previous_stored (h : spec.isReadOnly i = false) (old value : UInt64) :
    spec.previous i (spec.stored i true old value) =
      overlaid (spec.writable i) (spec.previous i old) value := by
  cases hk : (spec.cell i).kind with
  | plain => simp only [previous, stored, writable, hk, overlaid_allBits]
  | masked mask => simp [previous, stored, writable, hk, overlaid]
  | readOnly => simp [isReadOnly, hk] at h
  | view base mask =>
    have hwidth : field mask old &&& ~~~field mask mask = 0 := by
      rw [← field_and_width, UInt64.and_assoc]
      simp
    simp only [previous, stored, writable, hk, overlaid]
    rw [field_setField, hwidth, UInt64.or_zero]

/-- A write of what a cell shows, as far as it can be written, makes no difference. -/
theorem stored_of_and_eq (h : spec.isReadOnly i = false) {old value : UInt64}
    (hsame : value &&& spec.writable i = spec.previous i old &&& spec.writable i) :
    spec.stored i true old value = old := by
  cases hk : (spec.cell i).kind with
  | plain =>
    simp only [stored, previous, writable, hk, and_allBits] at hsame ⊢
    exact hsame
  | masked mask =>
    simp only [previous, writable, hk] at hsame
    have hold := overlaid_of_and_eq hsame
    simpa [stored, hk, overlaid] using hold
  | readOnly => simp [isReadOnly, hk] at h
  | view base mask =>
    simp only [previous, writable, hk, field_and_width] at hsame
    simp only [stored, hk]
    exact setField_of_and_eq hsame

end BankSpec

namespace Bank
variable {spec : BankSpec} {i j : spec.Position}

theorem read_eq_previous (h : spec.isNested i = false) (b : Bank spec) :
    b.read i = spec.previous i (b.values.get (spec.owner i)) := (answer_store h b true 0).symm

/-- An ordinary write changes the bits that can be written. -/
theorem read_set (h : spec.isNested i = false) (b : Bank spec) (value : UInt64) :
    (b.set i value).state.read i = overlaid (spec.writable i) (b.read i) value := by
  cases hro : spec.isReadOnly i with
  | false =>
    rw [set_of_writable hro, read_eq_previous h, read_eq_previous h, get_store, if_pos rfl]
    exact BankSpec.previous_stored hro _ value
  | true =>
    have hnone : spec.writable i = 0 := by
      rw [BankSpec.isReadOnly, beq_iff_eq] at hro
      rw [BankSpec.writable, hro]
    rw [hnone, overlaid_zero, set, if_pos hro]
    rfl

/-- A bank is left as it is by a write of what a cell shows in the bits that can be written. -/
theorem set_of_and_eq (h : spec.isNested i = false) (b : Bank spec) {value : UInt64}
    (hsame : value &&& spec.writable i = b.read i &&& spec.writable i) :
    (b.set i value).state = b := by
  cases hro : spec.isReadOnly i with
  | false =>
    rw [read_eq_previous h] at hsame
    have hstored : spec.stored i true b.values[spec.owner i] value = b.values[spec.owner i] :=
      BankSpec.stored_of_and_eq hro hsame
    have hvalues : (b.store i true value).2.values = b.values := by
      rw [values_store, hstored]
      exact Vector.set_getElem_self ..
    have hstate : (b.store i true value).2 = { b with values := (b.store i true value).2.values } :=
      rfl
    rw [set_of_writable hro, hstate, hvalues]
  | true => simp [set, hro, Step.quiet]

/-- What does not share the storage of a cell keeps what it shows. -/
theorem read_set_of_owner_ne (hj : spec.isNested j = false) (h : spec.owner i ≠ spec.owner j)
    (b : Bank spec) (value : UInt64) : (b.set i value).state.read j = b.read j := by
  have hheld := b.holding_set i (spec.owner j) value
  rw [if_neg h] at hheld
  have hvalue : (b.set i value).state.values.get (spec.owner j) = b.values.get (spec.owner j) :=
    congrArg Holding.value hheld
  rw [read_eq_previous hj, read_eq_previous hj, hvalue]

end Bank

namespace Control

/-- The bits that ordinary writes can change in the register of a number that is not read-only. -/
def writableBits (n : Int) : UInt64 :=
  match n with
  | 0x000 => 0x11
  | 0x001 => 0x1F
  | 0x002 => 0x7
  | 0x003 => 0xFF
  | _ => allBits

theorem isNested_cell : ∀ i, spec.isNested i = false := by decide

theorem writable_cell : ∀ i, isReadOnly (spec.cell i).number = false →
    spec.writable i = writableBits (spec.cell i).number := by decide

theorem mem_block : ∀ i, i ∈ block.members := by decide

/-- Registers that share storage, neither of them a view of the other, are disjoint fields. -/
theorem disjoint_of_owner_eq : ∀ i j, j ≠ i → spec.owner j ≠ i → spec.owner i ≠ j →
    spec.owner i = spec.owner j →
    (spec.cell i).kind = .view (spec.owner i) (spec.window i) ∧
      (spec.cell j).kind = .view (spec.owner i) (spec.window j) ∧
      spec.window i &&& spec.window j = 0 := by decide

end Control

namespace ControlFile
open Control
variable {f : ControlFile} {i : spec.Position}

/-- An operation has written a register, which holds `value` now. It answered what the register
held, recorded that and left all that does not share bits with the register as it was. -/
structure Rewritten (f : ControlFile) (i : spec.Position) (value : UInt64)
    (s : Step ControlFile (Option UInt64)) : Prop where
  answered : s.answer = some (f.bank.read i)
  recorded : Signal.SentTo f.sink [.controlRegister (spec.cell i).number (f.bank.read i)] s.signals
  shown : s.state.bank.read i = value
  /-- Of the register that a field is a part of, the other bits are kept. -/
  outside : ∀ (base : spec.Position) (mask : UInt64), (spec.cell i).kind = .view base mask →
    s.state.bank.read base &&& ~~~mask = f.bank.read base &&& ~~~mask
  /-- Only a view of the register and the register that it is a view of show a change with it. -/
  apart : ∀ j, j ≠ i → spec.owner j ≠ i → spec.owner i ≠ j → s.state.bank.read j = f.bank.read j
  frame : s.state = { f with bank := { f.bank with values := s.state.bank.values } }

theorem rewritten_write (h : isReadOnly (spec.cell i).number = false) (f : ControlFile)
    (value : UInt64) :
    f.Rewritten i (overlaid (spec.writable i) (f.bank.read i) value) (f.write i value) := by
  have hset := Bank.set_of_writable (isReadOnly_cell i h) (b := f.bank) value
  have hanswer : (f.bank.set i value).answer = f.bank.read i := by
    rw [hset]
    exact Bank.answer_store (isNested_cell i) f.bank true value
  rw [write_of_writable h, hanswer]
  refine ⟨rfl, ?_, Bank.read_set (isNested_cell i) f.bank value, ?_, ?_, ?_⟩
  · exact (Signal.sentTo_of_silent f.sink fun sink => f.bank.recordsTo_set sink i value).append
      (Signal.sentTo_signals f.sink _)
  · intro base mask hview
    have hbase : spec.isView base = false := by
      have howner := BankSpec.owner_of_view hview
      rw [← isNested_cell i, BankSpec.isNested, howner]
      rfl
    exact ((Bank.lenses hbase f.bank).set_view i mask value hview).kept
  · intro j hne hview hbase
    by_cases howner : spec.owner i = spec.owner j
    · -- two fields of one register
      obtain ⟨hi, hj, hdisjoint⟩ := disjoint_of_owner_eq i j hne hview hbase howner
      have hlenses := Bank.lenses (isNested_cell i) f.bank
      exact (hlenses.set_view i _ value hi).apart j _ hj hdisjoint
    · exact Bank.read_set_of_owner_ne (isNested_cell j) howner f.bank value
  · rw [hset]
    rfl

theorem Rewritten.after_notices {value : UInt64} {s : Step ControlFile (Option UInt64)}
    (h : f.Rewritten i value s) {signals : List Signal}
    (hsignals : ∀ sink, Signal.recordsTo sink signals = []) :
    f.Rewritten i value { s with signals := signals ++ s.signals } :=
  { h with recorded := (Signal.sentTo_of_silent f.sink hsignals).append h.recorded }

theorem update_number (f : ControlFile) (i : spec.Position) (value : UInt64) :
    f.update (.number (spec.cell i).number) value = f.write i value := by
  rw [update, RegisterBlock.find?, byNumber?_number i (mem_block i)]

theorem modify_number (f : ControlFile) (i : spec.Position) (change : UInt64 → UInt64) :
    f.modify (spec.cell i).number change =
      { f.write i (change (f.bank.read i)) with
        signals := f.bank.notify i .read ++ (f.write i (change (f.bank.read i))).signals } := by
  rw [modify, byNumber?_number i (mem_block i)]
  rfl

theorem rewritten_modify (h : isReadOnly (spec.cell i).number = false) (f : ControlFile)
    (change : UInt64 → UInt64) :
    f.Rewritten i (overlaid (spec.writable i) (f.bank.read i) (change (f.bank.read i)))
      (f.modify (spec.cell i).number change) := by
  rw [modify_number]
  exact (rewritten_write h f _).after_notices fun sink => f.bank.recordsTo_notify sink i .read

/-- A change that keeps the bits that it has made leaves the file as it is when it is made again. -/
theorem modify_modify (h : isReadOnly (spec.cell i).number = false) (f : ControlFile)
    {change : UInt64 → UInt64}
    (hagain : ∀ old, change (overlaid (spec.writable i) old (change old)) &&& spec.writable i =
      change old &&& spec.writable i) :
    let s := f.modify (spec.cell i).number change
    (s.state.modify (spec.cell i).number change).state = s.state := by
  intro s
  -- the second time, what is written agrees with what is shown wherever it can be written
  have hshown := (rewritten_modify h f change).shown
  have hfits : change (s.state.bank.read i) &&& spec.writable i =
      s.state.bank.read i &&& spec.writable i := by
    rw [hshown, hagain, overlaid_and]
  rw [modify_number, write_of_writable h]
  dsimp only
  rw [Bank.set_of_and_eq (isNested_cell i) s.state.bank hfits]

theorem rewritten_setBits (h : isReadOnly (spec.cell i).number = false) (f : ControlFile)
    (m : UInt64) :
    f.Rewritten i (f.bank.read i ||| (m &&& spec.writable i))
      (f.setBits (spec.cell i).number m) := by
  rw [← overlaid_or]
  exact rewritten_modify h f (· ||| m)

theorem rewritten_clearBits (h : isReadOnly (spec.cell i).number = false) (f : ControlFile)
    (m : UInt64) :
    f.Rewritten i (f.bank.read i &&& ~~~(m &&& spec.writable i))
      (f.clearBits (spec.cell i).number m) := by
  rw [← overlaid_and_not]
  exact rewritten_modify h f (· &&& ~~~m)

theorem setBits_setBits (h : isReadOnly (spec.cell i).number = false) (f : ControlFile)
    (m : UInt64) :
    let s := f.setBits (spec.cell i).number m
    (s.state.setBits (spec.cell i).number m).state = s.state := by
  refine modify_modify h f fun old => ?_
  rw [or_and_distrib, overlaid_and, or_and_distrib, UInt64.or_assoc, UInt64.or_self]

theorem clearBits_clearBits (h : isReadOnly (spec.cell i).number = false) (f : ControlFile)
    (m : UInt64) :
    let s := f.clearBits (spec.cell i).number m
    (s.state.clearBits (spec.cell i).number m).state = s.state := by
  refine modify_modify h f fun old => ?_
  let w := spec.writable i
  calc overlaid w old (old &&& ~~~m) &&& ~~~m &&& w
      = overlaid w old (old &&& ~~~m) &&& w &&& ~~~m := by ac_rfl
    _ = old &&& ~~~m &&& w &&& ~~~m := by rw [overlaid_and]
    _ = old &&& (~~~m &&& ~~~m) &&& w := by ac_rfl
    _ = old &&& ~~~m &&& w := by rw [UInt64.and_self]

/-- Bits that are set and cleared in a register change those bits of it that ordinary writes can
change, and no other ones. The register answers what it held before and this is recorded, a second
call makes no difference, and only views of the register and the register that it is a view of
change with it. Without a register of the number, and if the number is read-only, nothing comes of
it. -/
theorem set_and_clear_touch_writable_bits (f : ControlFile) (n : Int) (m : UInt64) :
    ((∀ i, (spec.cell i).number ≠ n) ∨ (0xC00 ≤ n ∧ n ≤ 0xFFF) →
      f.Ignored (f.setBits n m) ∧ f.Ignored (f.clearBits n m)) ∧
    ∀ i, (spec.cell i).number = n → ¬ (0xC00 ≤ n ∧ n ≤ 0xFFF) →
      let old := f.bank.read i
      let w := writableBits n
      (∀ value, f.Rewritten i ((value &&& w) ||| (old &&& ~~~w)) (f.update (.number n) value)) ∧
        f.Rewritten i (old ||| (m &&& w)) (f.setBits n m) ∧
        f.Rewritten i (old &&& ~~~(m &&& w)) (f.clearBits n m) ∧
        ((f.setBits n m).state.setBits n m).state = (f.setBits n m).state ∧
        ((f.clearBits n m).state.clearBits n m).state = (f.clearBits n m).state := by
  constructor
  · rintro (hnone | hn)
    · have hunmapped : block.byNumber? n = none := by
        rw [RegisterBlock.byNumber?, List.find?_eq_none]
        intro i _
        simpa using hnone i
      have hignored : ∀ change, f.Ignored (f.modify n change) := by
        intro change
        rw [modify, hunmapped]
        exact ⟨rfl, rfl, fun _ => rfl⟩
      exact ⟨hignored _, hignored _⟩
    · have hread := isReadOnly_iff.mpr hn
      exact ⟨modify_of_readOnly hread _, modify_of_readOnly hread _⟩
  · rintro i rfl hn old w
    have h : isReadOnly (spec.cell i).number = false :=
      Bool.eq_false_iff.mpr fun hread => hn (isReadOnly_iff.mp hread)
    have hw : spec.writable i = w := writable_cell i h
    refine ⟨fun value => ?_, ?_, ?_, setBits_setBits h f m, clearBits_clearBits h f m⟩
    · rw [update_number, ← hw]
      exact rewritten_write h f value
    · rw [← hw]
      exact rewritten_setBits h f m
    · rw [← hw]
      exact rewritten_clearBits h f m

/-- Bits beyond the flags do not get into the rounding mode beside them. -/
example :
    let f := (initial.setBits 0x003 0xE5).state
    (f.setBits 0x001 0xFFF).state.bank.read fcsr = 0xFF ∧
      (f.clearBits 0x001 0xFFF).state.bank.read fcsr = 0xE0 := by
  decide +kernel

end ControlFile

end ArchState
