import ArchState.Proofs.Memory.DoubleWord

/-! # Which accesses fault

Loads and stores are checked alike. What stands in the way of an access is one of six obstacles,
and the first of them is reported. None of them reads what the memory holds, so an access faults
or not by its address, its length, the layout and the switch for programs that change their text.
-/
namespace ArchState

def Access.dual : Access → Access
  | read => write
  | write => read

/-- The fault of a store that fails as a load does, and the other way round. -/
def AddressFault.dual (f : AddressFault) : AddressFault := { f with access := f.access.dual }

/-- What can stand in the way of an access. -/
inductive Obstacle where
  | badLength
  | wrapAround
  | unowned
  | forbiddenText
  | wordCrossing
  | segmentCrossing
  deriving DecidableEq, Repr

namespace Obstacle

/-- The obstacles in the order in which they are reported. -/
def all : List Obstacle :=
  [badLength, wrapAround, unowned, forbiddenText, wordCrossing, segmentCrossing]

def reason : Obstacle → FaultReason
  | badLength | wordCrossing => .misaligned
  | wrapAround | unowned | segmentCrossing => .outOfRange
  | forbiddenText => .textForbidden

end Obstacle

/-- An access that is refused: the reason and the address that its fault names. -/
structure Refusal where
  reason : FaultReason
  address : UInt32
  deriving DecidableEq, Repr

/-- How an access ends that is refused for a reason or for none. -/
def Access.outcome (access : Access) : Option Refusal → Except AddressFault Unit
  | none => .ok ()
  | some r => .error ⟨access, r.reason, r.address⟩

theorem Access.outcome_or (access : Access) (r s : Option Refusal) :
    access.outcome (r.or s) = (access.outcome r >>= fun _ => access.outcome s) := by
  cases r <;> rfl

theorem Access.outcome_eq_ok_iff {access : Access} {r : Option Refusal} :
    access.outcome r = .ok () ↔ r = none := by
  cases r with
  | none => exact ⟨fun _ => rfl, fun _ => rfl⟩
  | some r => exact ⟨nofun, nofun⟩

theorem Access.access_of_outcome {access : Access} {r : Option Refusal} {fault : AddressFault}
    (h : access.outcome r = .error fault) : fault.access = access := by
  cases r with
  | none => exact nomatch h
  | some r => cases h; rfl

theorem Access.outcome_dual (access : Access) (r : Option Refusal) :
    access.dual.outcome r = (access.outcome r).mapError AddressFault.dual := by
  cases r <;> rfl

/-- The accesses that programs make: to some bytes anywhere or to a unit at a multiple of its
size. A double word stands at a multiple of the size of a word. -/
inductive AccessKind where
  | bytes (length : Nat)
  | byte
  | half
  | word
  | double
  deriving DecidableEq, Repr

namespace Memory
variable {m n : Memory} {a : UInt32} {length : Nat}

/-- Whether an obstacle stands in the way of an access to `length` bytes from `a` on. -/
def obstructs (m : Memory) (a : UInt32) (length : Nat) : Obstacle → Bool
  | .badLength => length ≠ 1 ∧ length ≠ 2 ∧ length ≠ 4
  | .wrapAround => 0xFFFFFFFF < a.toNat + (length - 1)
  | .unowned => m.segments.owner? a = none
  | .forbiddenText => m.segments.owner? a = some .text ∧ m.selfModifying = false
  | .wordCrossing => m.segments.owner? a = some .text ∧ 4 < a.toNat % 4 + length
  | .segmentCrossing => m.segments.owner? a ≠ some .text ∧
      m.segments.owner? (a + UInt32.ofNat (length - 1)) ≠ m.segments.owner? a

/-- The obstacle that an access reports. -/
def obstacle? (m : Memory) (a : UInt32) (length : Nat) : Option Obstacle :=
  Obstacle.all.find? (m.obstructs a length)

/-- The bytes that programs may load and store as one access: one, two or four bytes below the
top, in one segment other than text or, where programs may change it, in one word of text. -/
def Accessible (m : Memory) (a : UInt32) (length : Nat) : Prop :=
  (length = 1 ∨ length = 2 ∨ length = 4) ∧ a.toNat + (length - 1) ≤ 0xFFFFFFFF ∧
    ((∃ seg, seg ≠ .text ∧ m.segments.owner? a = some seg ∧
        m.segments.owner? (a + UInt32.ofNat (length - 1)) = some seg) ∨
      m.segments.owner? a = some .text ∧ m.selfModifying = true ∧ a.toNat % 4 + length ≤ 4)

/-- The last byte of an access within a word lies in the segment of the first one. -/
theorem owner?_last (hl : 0 < length) (h : a.toNat % 4 + length ≤ 4) :
    m.segments.owner? (a + UInt32.ofNat (length - 1)) = m.segments.owner? a := by
  have ha := a.toNat_lt
  refine Segments.owner?_congr (Segments.wordBase_eq_iff.mpr ?_)
  rw [last_toNat (by omega) (by omega)]
  omega

theorem locate_isOk_iff (access : Access) :
    (∃ seg, m.locate access a length = .ok seg) ↔ m.Accessible a length := by
  constructor
  · rintro ⟨seg, h⟩
    obtain ⟨hl, hw, ha, hz, htext⟩ := locate_eq_ok_iff.mp h
    refine ⟨hl, by omega, ?_⟩
    by_cases hseg : seg = .text
    · subst hseg
      exact .inr ⟨ha, (htext rfl).1, (htext rfl).2⟩
    · exact .inl ⟨seg, hseg, ha, hz⟩
  · rintro ⟨hl, hw, ⟨seg, hseg, ha, hz⟩ | ⟨ha, hself, hword⟩⟩
    · exact ⟨seg, locate_eq_ok_iff.mpr ⟨hl, by omega, ha, hz, fun h => absurd h hseg⟩⟩
    · refine ⟨.text, locate_eq_ok_iff.mpr ⟨hl, by omega, ha, ?_, fun _ => ⟨hself, hword⟩⟩⟩
      rw [← ha]
      exact owner?_last (by omega) hword

/-- The first obstacle decides: what `locate` answers is an error exactly where there is one. -/
theorem locate_eq_obstacle (m : Memory) (access : Access) (a : UInt32) (length : Nat) :
    (m.locate access a length).map (fun _ => ()) =
      access.outcome ((m.obstacle? a length).map fun o => ⟨o.reason, a⟩) := by
  by_cases hl : length ≠ 1 ∧ length ≠ 2 ∧ length ≠ 4
  · have ho : m.obstacle? a length = some .badLength :=
      List.find?_cons_of_pos (decide_eq_true hl)
    rw [locate, if_pos hl, ho]
    rfl
  by_cases hw : 0x100000000 < a.toNat + length
  · have ho : m.obstacle? a length = some .wrapAround := by
      simp [obstacle?, Obstacle.all, obstructs, hl]
      omega
    rw [locate, if_neg hl, if_pos hw, ho]
    rfl
  have hw' : ¬ 0xFFFFFFFF < a.toNat + (length - 1) := by omega
  rw [locate, if_neg hl, if_neg hw]
  have hskip : m.obstacle? a length =
      [.unowned, .forbiddenText, .wordCrossing, .segmentCrossing].find? (m.obstructs a length) := by
    rw [obstacle?, Obstacle.all, List.find?_cons_of_neg (by simpa [obstructs] using hl),
      List.find?_cons_of_neg (by simpa [obstructs] using hw')]
  rw [hskip]
  cases ho : m.segments.owner? a with
  | none => simp [obstructs, ho, Except.map, Access.outcome, Obstacle.reason]
  | some seg =>
    cases seg with
    | text =>
      cases hs : m.selfModifying
      · simp [obstructs, ho, hs, Except.map, Access.outcome, Obstacle.reason]
      · by_cases hc : 4 < a.toNat % 4 + length
        · simp [obstructs, ho, hs, hc, Except.map, Access.outcome, Obstacle.reason]
        · simp [obstructs, ho, hs, hc, Except.map, Access.outcome]
    | data | stack | mmio =>
      by_cases hz : m.segments.owner? (a + UInt32.ofNat (length - 1)) = m.segments.owner? a
      · simp [obstructs, ho, hz, Except.map, Access.outcome]
      · rw [ho] at hz
        simp [obstructs, ho, hz, Except.map, Access.outcome, Obstacle.reason]

theorem obstacle?_eq_none_iff : m.obstacle? a length = none ↔ m.Accessible a length := by
  have hlocate := m.locate_eq_obstacle .read a length
  rw [← locate_isOk_iff .read]
  cases hl : m.locate .read a length with
  | error fault =>
    rw [hl] at hlocate
    constructor
    · intro h
      rw [h] at hlocate
      exact nomatch hlocate
    · rintro ⟨seg, hseg⟩
      exact nomatch hseg
  | ok seg =>
    rw [hl] at hlocate
    refine ⟨fun _ => ⟨seg, rfl⟩, fun _ => ?_⟩
    exact Option.map_eq_none_iff.mp (Access.outcome_eq_ok_iff.mp hlocate.symm)

/-- How a load ends, but for what it reads and whom it tells. -/
def loadOutcome (m : Memory) (a : UInt32) : AccessKind → Except AddressFault Unit
  | .bytes length => (m.get a length).answer.map fun _ => ()
  | .byte => (m.getByte a).answer.map fun _ => ()
  | .half => (m.getHalf a).answer.map fun _ => ()
  | .word => (m.getWord a).answer.map fun _ => ()
  | .double => (m.getDouble a).answer.map fun _ => ()

/-- How a store of `d`, or of the low word of it, ends. -/
def storeOutcome (m : Memory) (a : UInt32) (d : UInt64) : AccessKind → Except AddressFault Unit
  | .bytes length => (m.set a (DoubleWord.lowWord d) length).answer.map fun _ => ()
  | .byte => (m.setByte a (DoubleWord.lowWord d)).answer.map fun _ => ()
  | .half => (m.setHalf a (DoubleWord.lowWord d)).answer.map fun _ => ()
  | .word => (m.setWord a (DoubleWord.lowWord d)).answer.map fun _ => ()
  | .double => (m.setDouble a d).answer.map fun _ => ()

def bytesRefusal? (m : Memory) (a : UInt32) (length : Nat) : Option Refusal :=
  (m.obstacle? a length).map fun o => ⟨o.reason, a⟩

def misalignment? (a : UInt32) (alignment : Nat) : Option Refusal :=
  if a.toNat % alignment = 0 then none else some ⟨.misaligned, a⟩

def unitRefusal? (m : Memory) (a : UInt32) (size : Nat) : Option Refusal :=
  (misalignment? a size).or (m.bytesRefusal? a size)

def upperRefusal? (a : UInt32) : Option Refusal :=
  (misalignment? a 4).or (if a.toNat + 4 < 0x100000000 then none else some ⟨.outOfRange, a⟩)

/-- Why an access is refused. A unit is checked for its address first and a double word for both
of its addresses, then the lower word and then the upper one. -/
def refusal? (m : Memory) (a : UInt32) : AccessKind → Option Refusal
  | .bytes length => m.bytesRefusal? a length
  | .byte => m.unitRefusal? a 1
  | .half => m.unitRefusal? a 2
  | .word => m.unitRefusal? a 4
  | .double => (upperRefusal? a).or ((m.bytesRefusal? a 4).or (m.bytesRefusal? (a + 4) 4))

def Permits (m : Memory) (a : UInt32) : AccessKind → Prop
  | .bytes length => m.Accessible a length
  | .byte => m.Accessible a 1
  | .half => a.toNat % 2 = 0 ∧ m.Accessible a 2
  | .word => a.toNat % 4 = 0 ∧ m.Accessible a 4
  | .double => a.toNat % 4 = 0 ∧ a.toNat + 4 < 0x100000000 ∧ m.Accessible a 4 ∧
      m.Accessible (a + 4) 4

theorem checkAligned_eq_misalignment (access : Access) (a : UInt32) (alignment : Nat) :
    checkAligned access a alignment = access.outcome (misalignment? a alignment) := by
  rw [checkAligned, misalignment?]
  split <;> rfl

theorem upperHalf_eq_refusal (access : Access) (a : UInt32) :
    upperHalf access a = (access.outcome (upperRefusal? a)).map fun _ => a + 4 := by
  rw [upperHalf, upperRefusal?, Access.outcome_or, checkAligned_eq_misalignment]
  cases access.outcome (misalignment? a 4) with
  | error fault => rfl
  | ok _ =>
    change ite _ _ _ = Except.map _ (access.outcome (ite _ _ _))
    split <;> rfl

theorem misalignment?_eq_none_iff {alignment : Nat} :
    misalignment? a alignment = none ↔ a.toNat % alignment = 0 := by
  rw [misalignment?]
  split <;> simp_all

theorem upperRefusal?_eq_none_iff :
    upperRefusal? a = none ↔ a.toNat % 4 = 0 ∧ a.toNat + 4 < 0x100000000 := by
  rw [upperRefusal?, Option.or_eq_none_iff, misalignment?_eq_none_iff]
  split <;> simp_all

theorem bytesRefusal?_eq_none_iff : m.bytesRefusal? a length = none ↔ m.Accessible a length := by
  rw [bytesRefusal?, Option.map_eq_none_iff, obstacle?_eq_none_iff]

theorem refusal?_eq_none_iff {kind : AccessKind} : m.refusal? a kind = none ↔ m.Permits a kind := by
  cases kind with
  | bytes length => exact bytesRefusal?_eq_none_iff
  | byte => simp [refusal?, unitRefusal?, Permits, bytesRefusal?_eq_none_iff,
      misalignment?_eq_none_iff, Nat.mod_one]
  | half | word => simp [refusal?, unitRefusal?, Permits, bytesRefusal?_eq_none_iff,
      misalignment?_eq_none_iff]
  | double => simp [refusal?, Permits, bytesRefusal?_eq_none_iff, upperRefusal?_eq_none_iff,
      and_assoc]

theorem fetch_outcome (m : Memory) (a : UInt32) (length : Nat) :
    (m.fetch a length).map (fun _ => ()) = Access.read.outcome (m.bytesRefusal? a length) := by
  rw [bytesRefusal?, ← locate_eq_obstacle, fetch_eq]
  cases m.locate .read a length <;> rfl

theorem get_outcome (m : Memory) (a : UInt32) (length : Nat) :
    (m.get a length).answer.map (fun _ => ()) = Access.read.outcome (m.bytesRefusal? a length) := by
  rw [← fetch_outcome, get]
  cases m.fetch a length <;> rfl

theorem set_outcome (m : Memory) (a v : UInt32) (length : Nat) :
    (m.set a v length).answer.map (fun _ => ()) =
      Access.write.outcome (m.bytesRefusal? a length) := by
  rw [bytesRefusal?, ← locate_eq_obstacle]
  cases hl : m.locate .write a length with
  | error fault => rw [set_of_fault hl]; rfl
  | ok seg => rw [set_eq_replace hl]; rfl

theorem getAligned_outcome (m : Memory) (a : UInt32) (size : Nat) :
    (m.getAligned a size).answer.map (fun _ => ()) =
      Access.read.outcome (m.unitRefusal? a size) := by
  rw [unitRefusal?, Access.outcome_or, ← checkAligned_eq_misalignment, ← get_outcome, getAligned]
  cases checkAligned .read a size <;> rfl

theorem setAligned_outcome (m : Memory) (a v : UInt32) (size : Nat)
    (record : UInt32 → UInt32 → UndoRecord) :
    (m.setAligned a v size record).answer.map (fun _ => ()) =
      Access.write.outcome (m.unitRefusal? a size) := by
  rw [unitRefusal?, Access.outcome_or, ← checkAligned_eq_misalignment, ← set_outcome m a v,
    setAligned]
  cases checkAligned .write a size with
  | error fault => rfl
  | ok _ =>
    change ((m.set a v size).thenTry _).answer.map _ = (m.set a v size).answer.map _
    rw [Step.thenTry, Step.andThen]
    cases (m.set a v size).answer <;> rfl

theorem getDouble_outcome (m : Memory) (a : UInt32) :
    (m.getDouble a).answer.map (fun _ => ()) = Access.read.outcome (m.refusal? a .double) := by
  rw [refusal?, Access.outcome_or, Access.outcome_or, ← fetch_outcome, ← fetch_outcome, getDouble,
    upperHalf_eq_refusal]
  cases Access.read.outcome (upperRefusal? a) with
  | error fault => rfl
  | ok _ =>
    change (Reading.guarded (m.fetch a 4) fun low =>
      .guarded (m.fetch (a + 4) 4) _).answer.map _ = _
    cases m.fetch a 4 with
    | error fault => rfl
    | ok low =>
      rw [Reading.guarded]
      cases m.fetch (a + 4) 4 <;> rfl

theorem checkDoubleStore_outcome (m : Memory) (a : UInt32) :
    (m.checkDoubleStore a).map (fun _ => ()) = Access.write.outcome (m.refusal? a .double) := by
  rw [refusal?, Access.outcome_or, Access.outcome_or, checkDoubleStore, upperHalf_eq_refusal]
  cases hupper : upperRefusal? a with
  | some r => rfl
  | none =>
    obtain ⟨haligned, hinside⟩ := upperRefusal?_eq_none_iff.mp hupper
    change (m.checkWordStore a >>= fun _ => m.checkWordStore (a + 4) >>= fun _ => _).map _ = _
    rw [checkWordStore_eq m haligned, checkWordStore_eq m (upper_aligned haligned hinside).2,
      locate_eq_obstacle, locate_eq_obstacle]
    change _ = (Access.write.outcome (m.bytesRefusal? a 4) >>= fun _ => _)
    rw [← bytesRefusal?, ← bytesRefusal?]
    cases m.bytesRefusal? a 4 with
    | some r => rfl
    | none => cases m.bytesRefusal? (a + 4) 4 <;> rfl

theorem setDouble_outcome (m : Memory) (a : UInt32) (d : UInt64) :
    (m.setDouble a d).answer.map (fun _ => ()) = Access.write.outcome (m.refusal? a .double) := by
  rw [← checkDoubleStore_outcome]
  cases hcheck : m.checkDoubleStore a with
  | error fault => rw [setDouble, storeDouble, hcheck]; rfl
  | ok b =>
    obtain ⟨haligned, hinside, -, ⟨low, hlow⟩, high, hhigh⟩ := checkDoubleStore_eq_ok_iff.mp hcheck
    rw [setDouble_of_pair (wordPair_of_locate haligned hinside hlow hhigh)]
    rfl

theorem loadOutcome_eq_refusal (m : Memory) (a : UInt32) (kind : AccessKind) :
    m.loadOutcome a kind = Access.read.outcome (m.refusal? a kind) := by
  cases kind with
  | bytes length => exact m.get_outcome a length
  | byte => exact m.getAligned_outcome a 1
  | half => exact m.getAligned_outcome a 2
  | word => exact m.getAligned_outcome a 4
  | double => exact m.getDouble_outcome a

theorem storeOutcome_eq_refusal (m : Memory) (a : UInt32) (d : UInt64) (kind : AccessKind) :
    m.storeOutcome a d kind = Access.write.outcome (m.refusal? a kind) := by
  cases kind with
  | bytes length => exact m.set_outcome a _ length
  | byte => exact m.setAligned_outcome a _ 1 .byte
  | half => exact m.setAligned_outcome a _ 2 .half
  | word => exact m.setAligned_outcome a _ 4 .word
  | double => exact m.setDouble_outcome a d

/-- What an access is checked against is the layout and the switch for programs that change their
text. -/
theorem refusal?_congr (hlayout : n.layout = m.layout)
    (hself : n.selfModifying = m.selfModifying) (a : UInt32) (kind : AccessKind) :
    n.refusal? a kind = m.refusal? a kind := by
  have howner : n.segments.owner? = m.segments.owner? := by rw [segments, segments, hlayout]
  have hobstructs : n.obstructs = m.obstructs := by
    funext b length o
    cases o <;> simp only [obstructs, howner, hself]
  have hobstacle : n.obstacle? = m.obstacle? := by
    funext b length
    rw [obstacle?, obstacle?, hobstructs]
  cases kind <;> simp only [refusal?, unitRefusal?, bytesRefusal?, hobstacle]

/-- Loads and stores fault on the same accesses. Both succeed where the access is permitted,
whatever is stored. Elsewhere an access to some bytes fails for its first obstacle, and every
store fails as the load does, with the same address. What the memory holds, who watches it and
how its text is decoded does not matter. -/
theorem loads_and_stores_fault_alike (m : Memory) (a : UInt32) :
    (∀ kind, m.loadOutcome a kind = .ok () ↔ m.Permits a kind) ∧
    (∀ length o, m.obstacle? a length = some o →
      m.loadOutcome a (.bytes length) = .error ⟨.read, o.reason, a⟩) ∧
    (∀ kind fault, m.loadOutcome a kind = .error fault → fault.access = .read) ∧
    (∀ kind d, m.storeOutcome a d kind = (m.loadOutcome a kind).mapError AddressFault.dual) ∧
    (∀ kind (n : Memory), n.layout = m.layout → n.selfModifying = m.selfModifying →
      n.loadOutcome a kind = m.loadOutcome a kind) := by
  simp only [loadOutcome_eq_refusal, storeOutcome_eq_refusal]
  refine ⟨?_, ?_, ?_, ?_, ?_⟩
  · intro kind
    rw [Access.outcome_eq_ok_iff, refusal?_eq_none_iff]
  · intro length o ho
    rw [refusal?, bytesRefusal?, ho]
    rfl
  · intro kind fault hfault
    exact Access.access_of_outcome hfault
  · intro kind d
    exact Access.read.outcome_dual _
  · intro kind n hlayout hself
    rw [refusal?_congr hlayout hself]

/-- A word that begins in the data segment and ends in the stack is neither loaded nor stored,
also after a store to the first of the two words that hold it. -/
theorem word_across_data_and_stack_faults :
    let m := ofLayout .compactTextAtZero
    let n := m.putWord .data 0x2FFC 7
    m.obstacle? 0x2FFE 4 = some .segmentCrossing ∧
      n.layout = m.layout ∧ n.selfModifying = m.selfModifying ∧
      n.loadOutcome 0x2FFE (.bytes 4) = .error ⟨.read, .outOfRange, 0x2FFE⟩ ∧
      n.storeOutcome 0x2FFE 1 (.bytes 4) = .error ⟨.write, .outOfRange, 0x2FFE⟩ := by
  intro m n
  have hobstacle : m.obstacle? 0x2FFE 4 = some .segmentCrossing := by decide +kernel
  obtain ⟨-, hfirst, -, -, hcontents⟩ := loads_and_stores_fault_alike m 0x2FFE
  obtain ⟨-, -, -, hdual, -⟩ := loads_and_stores_fault_alike n 0x2FFE
  have hload : n.loadOutcome 0x2FFE (.bytes 4) = .error ⟨.read, .outOfRange, 0x2FFE⟩ :=
    (hcontents (.bytes 4) n rfl rfl).trans (hfirst 4 .segmentCrossing hobstacle)
  refine ⟨hobstacle, rfl, rfl, hload, ?_⟩
  rw [hdual, hload]
  rfl

end Memory
end ArchState
