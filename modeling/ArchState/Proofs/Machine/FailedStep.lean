import ArchState.Proofs.Machine.UndoneStore

/-! # Steps back that fail

A record that cannot be written back changes nothing about memory, the registers and the program
counter, but the step back has taken it from the log before it was tried. The record is lost: later
steps back go on with the older ones, whatever was done about the cause.
-/
namespace ArchState

namespace Memory
variable {m : Memory} {record : UndoRecord} {fault : AddressFault} {a v : UInt32} {length : Nat}

theorem set_of_error (h : (m.set a v length).answer = .error fault) :
    m.set a v length = .quiet (.error fault) m := by
  cases hl : m.locate .write a length with
  | error other =>
    rw [set_of_fault hl] at h ⊢
    obtain rfl : other = fault := Except.error.inj h
    rfl
  | ok seg =>
    rw [set_eq_replace hl] at h
    cases h

theorem storeDouble_of_error {d : UInt64} (h : (m.storeDouble a d).answer = .error fault) :
    m.storeDouble a d = .quiet (.error fault) m := by
  rcases m.storeDouble_cases_pair a d with ⟨low, high, hpair⟩ | ⟨other, hother⟩
  · rw [storeDouble_of_pair hpair] at h
    cases h
  · rw [hother] at h ⊢
    obtain rfl : other = fault := Except.error.inj h
    rfl

theorem quiet_of_map_error {α β : Type} {s : Step Memory (Except AddressFault α)} {f : α → β}
    (hs : ∀ {fault}, s.answer = .error fault → s = .quiet (.error fault) m)
    (h : (s.map (·.map f)).answer = .error fault) :
    s.map (·.map f) = .quiet (.error fault) m := by
  cases hanswer : s.answer with
  | ok a =>
    rw [Step.map, hanswer] at h
    cases h
  | error other =>
    rw [Step.map, hanswer] at h
    obtain rfl : other = fault := Except.error.inj h
    rw [hs hanswer]
    rfl

/-- A record that cannot be written back leaves memory as it is, with nobody told. -/
theorem restore_of_error (h : (m.restore record).answer = .error fault) :
    m.restore record = .quiet (.error fault) m := by
  cases record with
  | word a v => exact quiet_of_map_error set_of_error h
  | half a v => exact quiet_of_map_error set_of_error h
  | byte a v => exact quiet_of_map_error set_of_error h
  | rawWord a v =>
    rw [restore] at h ⊢
    cases hcheck : checkAligned .write a 4 with
    | error other =>
      rw [hcheck] at h
      obtain rfl : other = fault := Except.error.inj h
      rfl
    | ok _ =>
      rw [hcheck] at h
      exact quiet_of_map_error set_of_error h
  | doubleWord a d => exact quiet_of_map_error storeDouble_of_error h
  | register n v | floatRegister n v | controlRegister n v | programCounter v => cases h

end Memory

namespace Machine
variable {m : Machine} {log left : UndoLog} {record : UndoRecord} {fault : AddressFault}

theorem restore_of_error (h : (m.restore record).answer = .error fault) :
    m.restore record = .quiet (.error fault) m := by
  have hmemory := (m.memory_restore record).2
  rw [h] at hmemory
  have hquiet := Memory.restore_of_error hmemory.symm
  cases record with
  | register n v | floatRegister n v | controlRegister n v | programCounter v => cases h
  | word a v | half a v | byte a v | rawWord a v | doubleWord a d =>
    change m.inMemory (m.memory.restore _) = _
    rw [hquiet, inMemory, whole_of_silent rfl]
    rfl

theorem backstep_of_log (hlog : m.log = some log) (hpop : log.pop? = some (record, left)) :
    m.backstep = ⟨(m.restore record).answer.map fun _ => true,
      { (m.restore record).state with log := some left }, (m.restore record).signals⟩ := by
  have hself : { m with log := some log } = m := by rw [← hlog]
  have hstep := backstep_of_pop (m := m) hpop
  rw [hself] at hstep
  exact hstep

/-- A step back that fails has taken a record from the log that cannot be written back. -/
theorem record_of_backstep_error (h : m.backstep.answer = .error fault) :
    ∃ log record left, m.log = some log ∧ log.pop? = some (record, left) ∧
      (m.restore record).answer = .error fault := by
  cases hlog : m.log with
  | none =>
    rw [backstep_of_empty (.inl hlog)] at h
    cases h
  | some log =>
    cases hpop : log.pop? with
    | none =>
      rw [backstep_of_empty (.inr ⟨log, hlog, log.pop?_eq_none_iff.mp hpop⟩)] at h
      cases h
    | some popped =>
      obtain ⟨record, left⟩ := popped
      rw [backstep_of_log hlog hpop] at h
      refine ⟨log, record, left, rfl, hpop, ?_⟩
      cases hanswer : (m.restore record).answer with
      | error other =>
        rw [hanswer] at h
        exact congrArg Except.error (Except.error.inj h)
      | ok _ =>
        rw [hanswer] at h
        cases h

/-- A step back that fails leaves everything as it is but the log, which has lost the record that
could not be written back. No later step back gets to it: those of any machine with what is left of
the log write back the older records. -/
theorem failed_backstep_loses_record (h : m.backstep.answer = .error fault) :
    ∃ log record left, m.log = some log ∧ log.records = record :: left.records ∧
      (m.restore record).answer = .error fault ∧
      m.backstep = .quiet (.error fault) { m with log := some left } ∧ m.backstep.state ≠ m ∧
      ∀ x : Machine, x.log = some left → ∀ k,
        x.backsteps k = { x.writeBack (left.records.take k) with log := some (left.drop k) } := by
  obtain ⟨log, record, left, hlog, hpop, hrestore⟩ := record_of_backstep_error h
  have hrecords := (UndoLog.pop?_eq_some hpop).1
  have hstep : m.backstep = .quiet (.error fault) { m with log := some left } := by
    rw [backstep_of_log hlog hpop, restore_of_error hrestore]
    rfl
  refine ⟨log, record, left, hlog, hrecords, hrestore, hstep, ?_, fun x hx => ?_⟩
  · intro hsame
    rw [hstep] at hsame
    have hleft : some left = some log := (congrArg Machine.log hsame).trans hlog
    have hlength := congrArg (·.records.length) (Option.some.inj hleft)
    rw [hrecords] at hlength
    simp at hlength
  · exact backsteps_eq_writeBack hx

def allowSelfModifying (m : Machine) (on : Bool) : Machine :=
  { m with memory := { m.memory with selfModifying := on } }

/-- The machine in which a word of text was stored, which programs may no longer change. -/
def withForbiddenStore : Machine :=
  (withStatement.mutate (.word 0x400000 0x73)).state.allowSelfModifying false

/-- The store into text cannot be undone while text is protected, and its record is lost. -/
theorem forbidden_store_loses_record :
    let m := withForbiddenStore
    m.backstep.answer = .error ⟨.write, .textForbidden, 0x400000⟩ ∧
      ∃ log left, m.log = some log ∧ log.records = [.word 0x400000 0x13] ∧ left.records = [] ∧
        m.backstep.state = { m with log := some left } := by
  intro m
  have hfails : m.backstep.answer = .error ⟨.write, .textForbidden, 0x400000⟩ := by decide +kernel
  have hone : m.log.map UndoLog.records = some [.word 0x400000 0x13] := by decide +kernel
  obtain ⟨log, record, left, hlog, hrecords, -, hstep, -⟩ := failed_backstep_loses_record hfails
  rw [hlog] at hone
  have hlist := Option.some.inj hone
  obtain ⟨rfl, hleft⟩ := List.cons.inj (hrecords.symm.trans hlist)
  exact ⟨hfails, log, left, hlog, hlist, hleft, congrArg Step.state hstep⟩

/-- Once programs may change text again, a step back would undo the store, but not after one that
has failed in between. -/
theorem lost_record_is_not_retried :
    let m := withForbiddenStore
    let retried := (m.backstep.state.allowSelfModifying true).backstep
    let untried := (m.allowSelfModifying true).backstep
    m.backstep.answer = .error ⟨.write, .textForbidden, 0x400000⟩ ∧
      m.log.map UndoLog.size = some 1 ∧ m.backstep.state.log.map UndoLog.size = some 0 ∧
      (retried.answer = .ok false ∧ retried.state.memory.rawWord? 0x400000 = .ok (some 0x73)) ∧
      (untried.answer = .ok true ∧ untried.state.memory.rawWord? 0x400000 = .ok (some 0x13)) := by
  intro m retried untried
  exact ⟨by decide +kernel, by decide +kernel, by decide +kernel, by decide +kernel,
    by decide +kernel⟩

end Machine
end ArchState
