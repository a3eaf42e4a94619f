import ArchState.Proofs.Machine.Protection
import ArchState.Proofs.Machine.StaleLog
import ArchState.Proofs.Memory.Rewriting

/-! # Stores that were undone

A store that was made and undone has written each word that it touched anew. Raw readings show the
same values as before, but a word that was null shows zero, and a statement in text has lost where
it came from. Everything else in memory reads as it did.
-/
namespace ArchState

open Memory (StoreRequest)

namespace Mutation

def stores : Mutation → Bool
  | word _ _ | half _ _ | byte _ _ | rawWord _ _ | doubleWord _ _ => true
  | _ => false

/-- The writes that an operation makes in memory. -/
def writes : Mutation → List StoreRequest
  | word a v | rawWord a v => [⟨a, v, 4⟩]
  | half a v => [⟨a, v, 2⟩]
  | byte a v => [⟨a, v, 1⟩]
  | doubleWord a d => DoubleWord.writes a d
  | _ => []

/-- The writes that put back what a store has answered, in as many bytes as it has replaced. -/
def back (old : UInt64) : Mutation → List StoreRequest
  | word a _ | rawWord a _ => [⟨a, DoubleWord.lowWord old, 4⟩]
  | half a _ => [⟨a, DoubleWord.lowWord old, 2⟩]
  | byte a _ => [⟨a, DoubleWord.lowWord old, 1⟩]
  | doubleWord a _ => DoubleWord.writes a old
  | _ => []

/-- Whether an operation writes a byte of the word at `b`. -/
def Touches (op : Mutation) (b : UInt32) : Prop := ∃ w ∈ op.writes, w.touches b

/-- Whether the words that an operation touches are written as a whole. -/
def WritesWords (op : Mutation) : Prop := ∀ w ∈ op.writes, w.length = 4

end Mutation

namespace Machine
variable {m : Machine} {log : UndoLog} {op : Mutation} {a v : UInt32} {length : Nat}

/-- A step back undoes a store whose record is the newest one of the log. -/
theorem backstep_of_undoable {α β : Type} (hlog : m.log = some log) (hroom : 0 < log.capacity)
    {s : Step Memory α} (f : α → β) {record : UndoRecord} {touched : UInt32 → Prop} {p : Prop}
    (h : m.memory.Undoable s record touched p) :
    let later := ((m.inMemory s).map f).state
    later.backstep.answer = .ok true ∧ m.memory.Renewed later.backstep.state.memory touched p
      (later.memory.Merges record.writes) := by
  have hstate : ((m.inMemory s).map f).state =
      { m with memory := s.state, log := some (log.record record) } := by
    change (m.inMemory s).state = _
    rw [inMemory, whole_of_one h.sent, hlog]
    rfl
  obtain ⟨capacity, hcapacity⟩ := Nat.exists_eq_succ_of_ne_zero (Nat.ne_of_gt hroom)
  have hrecords : (log.record record).records = record :: log.records.take capacity := by
    rw [UndoLog.record_records, hcapacity, List.take_succ_cons]
  obtain ⟨left, hpop, -⟩ := UndoLog.pop?_of_records hrecords
  have hback := backstep_of_pop (m := { m with memory := s.state }) hpop
  obtain ⟨hmemory, hanswer⟩ := memory_restore { m with memory := s.state } record
  intro later
  rw [show later = _ from hstate, hback]
  dsimp only
  refine ⟨?_, ?_⟩
  · rw [hanswer, h.restored]
    rfl
  · rw [hmemory]
    exact h.renewed

/-- The stores of a byte, a half word and a word differ in their lengths and in their records. -/
theorem undone_unit (hsink : m.memory.sink = some .log) (hlog : m.log = some log)
    (hroom : 0 < log.capacity) (hlength : length = 1 ∨ length = 2 ∨ length = 4)
    {record : UInt32 → UInt32 → UndoRecord}
    (hrestore : ∀ n old, a.toNat % length = 0 →
      Memory.restore n (record a old) = (n.set a old length).map (·.map fun _ => ()))
    (hrecord : ∀ old, (record a old).writes = [⟨a, old, length⟩])
    (hop : m.mutate op = (m.inMemory (m.memory.setAligned a v length record)).map
      (Except.map fun old => some old.toUInt64))
    (hwrites : op.writes = [⟨a, v, length⟩])
    (hputBack : ∀ old, op.back old = [⟨a, DoubleWord.lowWord old, length⟩]) {old : Option UInt64}
    (hok : (m.mutate op).answer = .ok old) :
    let later := (m.mutate op).state
    later.backstep.answer = .ok true ∧ ∃ previous, old = some previous ∧
      m.memory.Renewed later.backstep.state.memory op.Touches
        (m.memory.decoder.Faithful ∨ op.WritesWords) (later.memory.Merges (op.back previous)) := by
  rw [hop] at hok ⊢
  obtain ⟨w, hw, rfl⟩ := exists_of_map_eq_ok hok
  have h := (Memory.undoable_setAligned hsink hlength hrestore hrecord hw).congr
    (Q := op.Touches) (q := m.memory.decoder.Faithful ∨ op.WritesWords) ?_ ?_
  · obtain ⟨hanswer, hrenewed⟩ := backstep_of_undoable hlog hroom
      (Except.map fun old => some old.toUInt64) h
    refine ⟨hanswer, _, rfl, ?_⟩
    rw [hputBack, DoubleWord.lowWord, UInt32.toUInt32_toUInt64, ← hrecord]
    exact hrenewed
  · intro b
    simp only [Mutation.Touches, hwrites, List.mem_singleton, exists_eq_left]
  · simp only [Mutation.WritesWords, hwrites, List.mem_singleton, forall_eq, imp_self]

/-- A store that has succeeded is undone by a step back as far as readings of values go. The words
that it has not touched read as before. Those that it has touched have been written anew: one that
was null shows zero, and one in text has the statement that the decoder makes of what the store has
left there with the bytes before put back into it. This is the encoding before, if the decoder keeps
encodings or the store was one of whole words. -/
theorem undone_store_renews (hsink : m.memory.sink = some .log) (hlog : m.log = some log)
    (hroom : 0 < log.capacity) (hstores : op.stores = true) {old : Option UInt64}
    (hok : (m.mutate op).answer = .ok old) :
    let later := (m.mutate op).state
    later.backstep.answer = .ok true ∧ ∃ previous, old = some previous ∧
      m.memory.Renewed later.backstep.state.memory op.Touches
        (m.memory.decoder.Faithful ∨ op.WritesWords) (later.memory.Merges (op.back previous)) := by
  cases op with
  | word a v | half a v | byte a v =>
    exact undone_unit hsink hlog hroom (by decide) (fun _ _ _ => rfl) (fun _ => rfl) rfl rfl
      (fun _ => rfl) hok
  | rawWord a v =>
    refine undone_unit hsink hlog hroom (by decide) ?_ (fun _ => rfl) rfl rfl (fun _ => rfl) hok
    intro n old haligned
    rw [Memory.restore, Memory.checkAligned, if_pos haligned]
    rfl
  | doubleWord a d =>
    obtain ⟨w, hw, rfl⟩ := exists_of_map_eq_ok (x := (m.memory.setDouble a d).answer) hok
    have h := (Memory.undoable_setDouble hsink hw).congr
      (q := m.memory.decoder.Faithful ∨ (Mutation.doubleWord a d).WritesWords)
      (fun _ => Iff.rfl) fun _ => trivial
    obtain ⟨hanswer, hrenewed⟩ := backstep_of_undoable hlog hroom (Except.map some) h
    exact ⟨hanswer, w, rfl, hrenewed⟩
  | _ => cases hstores

/-- The machine with a log, in which programs may change their text and one statement was
installed. -/
def withStatement : Machine :=
  let memory := { withLog.memory with selfModifying := true }
  { withLog with memory := memory.putStatement 0x400000 (.withSource 0x13 0x400000 "nop" 3) }

/-- A byte of a statement is stored and undone. The encoding is as before and the source is gone,
and a null word elsewhere is still null. -/
theorem undone_byte_of_statement :
    let m := withStatement
    let n := (m.mutate (.byte 0x400001 7)).state.backstep
    n.answer = .ok true ∧
      m.memory.fetchStatement 0x400000 = .ok (some (.withSource 0x13 0x400000 "nop" 3)) ∧
      n.state.memory.fetchStatement 0x400000 = .ok (some (.ofBinary 0x13 0x400000)) ∧
      n.state.memory.rawWord? 0x10010000 = .ok none := by
  have hstatement : withStatement.memory.fetchStatement 0x400000 =
      .ok (some (.withSource 0x13 0x400000 "nop" 3)) := by decide +kernel
  have hnull : withStatement.memory.rawWord? 0x10010000 = .ok none := by decide +kernel
  have htext : withStatement.memory.segments.owner? 0x400000 = some .text := by decide +kernel
  have htouched : (Mutation.byte 0x400001 7).Touches 0x400000 :=
    ⟨_, List.mem_singleton_self _, 0, by decide, by decide⟩
  have huntouched : ¬ (Mutation.byte 0x400001 7).Touches 0x10010000 := by
    rintro ⟨w, hw, i, hi, hplace⟩
    obtain rfl := List.mem_singleton.mp hw
    change i < 1 at hi
    change (0x400001 + i) / 4 = 0x4004000 at hplace
    omega
  have hok : (withStatement.mutate (.byte 0x400001 7)).answer = .ok (some 0) := by decide +kernel
  obtain ⟨hanswer, _, -, hrenewed⟩ := undone_store_renews rfl rfl (by decide) rfl hok
  obtain ⟨w, -, hw, -, hback⟩ := hrenewed.text 0x400000 htouched htext
  obtain rfl : w = 0x13 := hw (.inl Decoder.faithful_binary) _ hstatement
  rw [hstatement] at hback
  have hkept := (hrenewed.elsewhere _ huntouched).1
  rw [hnull] at hkept
  exact ⟨hanswer, hstatement, hback, hkept⟩

/-- The same machine with a decoder that does not keep the encodings that it is given. -/
def withCarelessDecoder : Machine :=
  let decoder : Decoder := fun w a => .ofBinary (w + 1) a
  { withStatement with memory := { withStatement.memory with decoder } }

/-- A step back does not take memory to where it was. It leaves a null word as zero and a statement
without its source, or with another encoding if the decoder does not keep encodings. With a log that
has no room it does nothing. -/
theorem undone_stores_leave_traces :
    let null := (withLog.mutate (.word 0x10010000 7)).state.backstep
    let statement := (withStatement.mutate (.word 0x400000 0x73)).state.backstep
    let careless := (withCarelessDecoder.mutate (.byte 0x400001 7)).state.backstep
    (null.answer = .ok true ∧ withLog.memory.rawWord? 0x10010000 = .ok none ∧
        null.state.memory.rawWord? 0x10010000 = .ok (some 0)) ∧
      (statement.answer = .ok true ∧ withStatement.memory.fetchStatement 0x400000 =
          .ok (some (.withSource 0x13 0x400000 "nop" 3)) ∧
        statement.state.memory.fetchStatement 0x400000 =
          .ok (some (.ofBinary 0x13 0x400000))) ∧
      (careless.answer = .ok true ∧ withCarelessDecoder.memory.rawWord? 0x400000 =
          .ok (some 0x13) ∧
        careless.state.memory.rawWord? 0x400000 = .ok (some 0x15)) ∧
      ∃ m, ofSettings { general := { backstep := true, backstepLimit := 0 } } = .ok m ∧
        (m.mutate (.word 0x10010000 7)).answer = .ok (some 0) ∧
        (m.mutate (.word 0x10010000 7)).state.backstep.answer = .ok false ∧
        m.memory.rawWord? 0x10010000 = .ok none ∧
        (m.mutate (.word 0x10010000 7)).state.backstep.state.memory.rawWord? 0x10010000 =
          .ok (some 7) := by
  intro null statement careless
  exact ⟨by decide +kernel, by decide +kernel, by decide +kernel, _, rfl, by decide +kernel⟩

end Machine
end ArchState
