import ArchState.Proofs.Machine.Backstep
import ArchState.Proofs.Machine.Renewal
import ArchState.Proofs.Memory.DoubleWord

/-! # Records of a state that is gone

A switch to another layout empties memory and resets every register, and a swap installs another
memory, but neither of them empties the log. Steps back that follow write the records of the old
state into the new one, the newest first, until they are used up. Only a reset empties the log as
well.
-/
namespace ArchState

/-- The log without its `k` newest records. -/
def UndoLog.drop (log : UndoLog) (k : Nat) : UndoLog where
  capacity := log.capacity
  records := log.records.drop k
  length_le := by
    rw [List.length_drop]
    exact Nat.le_trans (Nat.sub_le _ _) log.length_le

namespace UndoLog
variable {log : UndoLog} {k : Nat}

theorem drop_of_length_le (h : log.records.length ≤ k) :
    log.drop k = ⟨log.capacity, [], Nat.zero_le _⟩ := by
  have hnil : log.records.drop k = [] := List.drop_eq_nil_of_le h
  simp only [drop, hnil]

theorem pop?_drop_of_lt (h : k < log.records.length) :
    (log.drop k).pop? = some (log.records[k], log.drop (k + 1)) := by
  have hcons : (log.drop k).records = log.records[k] :: log.records.drop (k + 1) :=
    List.drop_eq_getElem_cons h
  obtain ⟨left, hpop, hleft⟩ := pop?_of_records hcons
  have hcapacity := (pop?_eq_some hpop).2
  have : left = log.drop (k + 1) := by
    obtain ⟨capacity, records, hlength⟩ := left
    simp only at hleft hcapacity
    subst hleft hcapacity
    rfl
  rw [hpop, this]

end UndoLog

namespace Memory
variable {m : Memory}

theorem recordsTo_set (m : Memory) (sink : Sink) (a v : UInt32) (length : Nat) :
    Signal.recordsTo sink (m.set a v length).signals = [] := by
  cases hl : m.locate .write a length with
  | error fault =>
    rw [set_of_fault hl]
    rfl
  | ok seg =>
    rw [set_eq_replace hl]
    exact recordsTo_notify _ sink .write a length _

theorem recordsTo_storeDouble (m : Memory) (sink : Sink) (a : UInt32) (d : UInt64) :
    Signal.recordsTo sink (m.storeDouble a d).signals = [] := by
  cases hcheck : m.checkDoubleStore a with
  | error fault =>
    rw [storeDouble, hcheck]
    rfl
  | ok b =>
    obtain ⟨haligned, hinside, -, ⟨low, hlow⟩, high, hhigh⟩ := checkDoubleStore_eq_ok_iff.mp hcheck
    rw [storeDouble_of_pair (wordPair_of_locate haligned hinside hlow hhigh)]
    simp only [Signal.recordsTo_append, recordsTo_notify, List.append_nil]

/-- Writing a record back sends no record, whatever the record and the memory. -/
theorem recordsTo_restore (m : Memory) (sink : Sink) (record : UndoRecord) :
    Signal.recordsTo sink (m.restore record).signals = [] := by
  cases record with
  | word a v => exact m.recordsTo_set sink a v 4
  | half a v => exact m.recordsTo_set sink a v 2
  | byte a v => exact m.recordsTo_set sink a v 1
  | rawWord a v =>
    rw [restore]
    cases checkAligned .write a 4 with
    | error fault => rfl
    | ok _ => exact m.recordsTo_set sink a v 4
  | doubleWord a d => exact m.recordsTo_storeDouble sink a d
  | register n v | floatRegister n v | controlRegister n v | programCounter v => rfl

end Memory

theorem IntegerFile.recordsTo_restore (f : IntegerFile) (sink : Sink) (number : Int)
    (value : UInt64) : Signal.recordsTo sink (f.restore number value).signals = [] := by
  unfold restore
  cases Integer.block.byNumber? number with
  | none => rfl
  | some i =>
    change Signal.recordsTo sink (f.write i value).signals = []
    unfold write
    split
    · rfl
    · exact Bank.recordsTo_set f.bank sink i value

theorem FloatFile.recordsTo_restore (f : FloatFile) (sink : Sink) (number : Int)
    (value : UInt64) : Signal.recordsTo sink (f.restore number value).signals = [] := by
  change Signal.recordsTo sink (Floating.block.update f.bank (.number number) value).signals = []
  unfold RegisterBlock.update
  cases Floating.block.find? (.number number) with
  | none => rfl
  | some i => exact Bank.recordsTo_set f.bank sink i value

namespace Machine
variable {m x : Machine} {log : UndoLog} {k : Nat}

/-- Writing a record back has nothing to do with the log. -/
theorem restore_withLog (m : Machine) (log : Option UndoLog) (record : UndoRecord) :
    restore { m with log } record =
      ⟨(m.restore record).answer, { (m.restore record).state with log },
        (m.restore record).signals⟩ := by
  cases record with
  | register n v =>
    simp only [restore, inIntegers, whole_of_silent (m.integers.recordsTo_restore .log n v)]
    rfl
  | floatRegister n v =>
    simp only [restore, inFloats, whole_of_silent (m.floats.recordsTo_restore .log n v)]
    rfl
  | controlRegister n v => rfl
  | programCounter v =>
    have hsilent := m.integers.bank.recordsTo_set .log Integer.programCounter v
    simp only [restore, inIntegers, whole_of_silent (s := m.integers.restorePc v) hsilent]
    rfl
  | word a v | half a v | byte a v | rawWord a v | doubleWord a d =>
    simp only [restore, inMemory, whole_of_silent (m.memory.recordsTo_restore .log _)]

/-- Writes records back, one after the other. One that cannot be written back is left out. -/
def writeBack (m : Machine) (records : List UndoRecord) : Machine :=
  records.foldl (fun m record => (m.restore record).state) m

theorem writeBack_concat (m : Machine) (records : List UndoRecord) (record : UndoRecord) :
    m.writeBack (records ++ [record]) = ((m.writeBack records).restore record).state := by
  rw [writeBack, List.foldl_append]
  rfl

theorem backstep_of_pop {record : UndoRecord} {left : UndoLog}
    (h : log.pop? = some (record, left)) :
    backstep { m with log := some log } =
      ⟨(m.restore record).answer.map fun _ => true,
        { (m.restore record).state with log := some left }, (m.restore record).signals⟩ := by
  have hpop : (some log).bind UndoLog.pop? = some (record, left) := h
  rw [backstep, hpop]
  change (restore { m with log := some left } record).map _ = _
  rw [restore_withLog]
  rfl

/-- Steps back take the records of the log, newest first, and write them back to the machine that
is there now. -/
theorem backsteps_eq_writeBack (hlog : m.log = some log) (k : Nat) :
    m.backsteps k = { m.writeBack (log.records.take k) with log := some (log.drop k) } := by
  induction k with
  | zero =>
    change m = { m with log := some log }
    rw [← hlog]
  | succ k ih =>
    rw [backsteps, ih]
    by_cases hk : k < log.records.length
    · rw [backstep_of_pop (UndoLog.pop?_drop_of_lt hk), List.take_succ_eq_append_getElem hk,
        writeBack_concat]
    · have hle : log.records.length ≤ k := Nat.le_of_not_lt hk
      have hempty : (log.drop k).records = [] := List.drop_eq_nil_of_le hle
      rw [backstep_of_empty (.inr ⟨_, rfl, hempty⟩), List.take_of_length_le hle,
        List.take_of_length_le (Nat.le_succ_of_le hle), UndoLog.drop_of_length_le hle,
        UndoLog.drop_of_length_le (Nat.le_succ_of_le hle)]
      rfl

theorem memory_backsteps (hlog : m.log = some log) (k : Nat) :
    (m.backsteps k).memory = (m.writeBack (log.records.take k)).memory := by
  rw [backsteps_eq_writeBack hlog]

/-- A step back answers what writing the record back has answered. -/
theorem backstep_answer (hlog : m.log = some log) (k : Nat) :
    (m.backsteps k).backstep.answer =
      if h : k < log.records.length then
        ((m.writeBack (log.records.take k)).restore log.records[k]).answer.map fun _ => true
      else .ok false := by
  rw [backsteps_eq_writeBack hlog]
  by_cases hk : k < log.records.length
  · rw [dif_pos hk, backstep_of_pop (UndoLog.pop?_drop_of_lt hk)]
  · have hempty : (log.drop k).records = [] := List.drop_eq_nil_of_le (Nat.le_of_not_lt hk)
    rw [dif_neg hk, backstep_of_empty (.inr ⟨_, rfl, hempty⟩)]
    rfl

/-- Whether a machine comes from another one by a switch to another layout or by a swap of the
memory. -/
inductive Replaced (m : Machine) : Machine → Prop where
  | switched {identifier : String} {s : Step Machine Bool} :
      m.select identifier = .ok s → s.answer = true → Replaced m s.state
  | swapped (memory : Memory) : Replaced m (m.swapMemory memory).2

theorem Replaced.log_eq (h : m.Replaced x) : x.log = m.log := by
  cases h with
  | switched hselect _ => exact log_select hselect
  | swapped memory => rfl

/-- Steps back do nothing exactly if the log is empty. -/
theorem backsteps_eq_self_iff (hlog : m.log = some log) :
    (∀ k, m.backsteps k = m) ↔ log.records = [] := by
  constructor
  · intro h
    have hdrop : some (log.drop 1) = some log := by
      rw [← hlog, ← h 1, backsteps_eq_writeBack hlog]
    have hlength := congrArg (fun log => log.records.length) (Option.some.inj hdrop)
    have hone : (log.drop 1).records.length = log.records.length - 1 := List.length_drop
    exact List.eq_nil_of_length_eq_zero (by omega)
  · intro hempty k
    induction k with
    | zero => rfl
    | succ k ih => rw [backsteps, ih, backstep_of_empty (.inr ⟨log, hlog, hempty⟩), Step.quiet]

/-- The log outlives the state that it describes. After a switch or a swap, `k` steps back write
the `k` newest records of the old state back to the new one. The step after that answers what
writing the next record back has answered, an error included, and answers that there was none
when all of them are used up. So steps back leave the new state alone exactly if the log was
empty. -/
theorem log_outlives_state (hlog : m.log = some log) (hx : m.Replaced x) :
    (∀ k, x.backsteps k = { x.writeBack (log.records.take k) with log := some (log.drop k) } ∧
      (x.backsteps k).backstep.answer =
        if h : k < log.records.length then
          ((x.writeBack (log.records.take k)).restore log.records[k]).answer.map fun _ => true
        else .ok false) ∧
    ((∀ k, x.backsteps k = x) ↔ log.records = []) := by
  have hxlog : x.log = some log := hx.log_eq.trans hlog
  refine ⟨?_, backsteps_eq_self_iff hxlog⟩
  intro k
  exact ⟨backsteps_eq_writeBack hxlog k, backstep_answer hxlog k⟩

/-- A machine built with a log. -/
def withLog : Machine := { initial 1 with log := some (.empty 8) }.attach (some .log)

theorem withLog_of_settings :
    ofSettings { general := { backstep := true, backstepLimit := 8 } } = .ok withLog := rfl

/-- After a store of 7 over 0, a memory with 5 at the same place is swapped in. A step back stores
the 0 of the first memory there. -/
theorem old_word_reaches_new_memory :
    let m := (withLog.mutate (.word 0x10010000 7)).state
    let x := (m.swapMemory ((Memory.ofLayout .default).setWord 0x10010000 5).state).2
    ∃ log, m.log = some log ∧ m.Replaced x ∧
      x.backsteps 1 = { x.writeBack [.word 0x10010000 0] with log := some (log.drop 1) } ∧
      (x.memory.rawWord 0x10010000).toOption = some 5 ∧
      ((x.backsteps 1).memory.rawWord 0x10010000).toOption = some 0 := by
  intro m x
  have hrecords : m.log.map UndoLog.records = some [.word 0x10010000 0] := by decide +kernel
  obtain ⟨log, hlog, hrecords⟩ := Option.map_eq_some_iff.mp hrecords
  have hx : m.Replaced x := .swapped _
  obtain ⟨hsteps, -⟩ := (log_outlives_state hlog hx).1 1
  rw [hrecords] at hsteps
  refine ⟨log, hlog, hx, hsteps, by decide +kernel, ?_⟩
  rw [memory_backsteps (hx.log_eq.trans hlog), hrecords]
  decide +kernel

/-- The program counter was moved, then reset by a switch to another layout. The step back takes
it to the start of the text of the layout before. -/
theorem old_counter_reaches_new_layout :
    let m := (withLog.mutate (.programCounter 0x400040)).state
    ofSettings { general := { backstep := true, backstepLimit := 8 } } = .ok withLog ∧
      ∃ s, m.select "CompactTextAtZero" = .ok s ∧ s.answer = true ∧
        s.state.integers.pc.answer = 0 ∧ s.state.backstep.answer = .ok true ∧
        s.state.backstep.state.integers.pc.answer = 0x400000 := by
  refine ⟨withLog_of_settings, _, rfl, ?_, ?_, ?_, ?_⟩
  · decide +kernel
  · decide +kernel
  · rfl
  · decide +kernel

end Machine
end ArchState
