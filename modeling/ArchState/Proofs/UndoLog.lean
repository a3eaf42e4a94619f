import ArchState.Undo

/-! # The undo log beside an unbounded stack

An undo log forgets its oldest record when it is full. Beside it stands a stack that gets the same
requests and never forgets. What the stack has and the log has not is what the log has forgotten
since it was last cleared, and all of it lies below the records of the log. So the log is the newest
part of the stack, however records, steps back and clears follow each other.
-/
namespace ArchState

inductive LogRequest where
  | record (r : UndoRecord)
  | pop
  | clear
  deriving DecidableEq, Repr

namespace UndoLog
variable {log rest : UndoLog} {r : UndoRecord}

/-- What the log forgets when `r` is added: the oldest record if it is full, which is `r` itself if
it has no room at all. -/
def forgets (log : UndoLog) (r : UndoRecord) : List UndoRecord :=
  if log.size = log.capacity then (log.snapshot ++ [r]).take 1 else []

theorem snapshot_record_of_lt (h : log.size < log.capacity) (r : UndoRecord) :
    (log.record r).snapshot = log.snapshot ++ [r] := by
  have hfits : (r :: log.records).length ≤ log.capacity := h
  rw [snapshot, record_records, List.take_of_length_le hfits, List.reverse_cons, snapshot]

theorem snapshot_record_of_full (h : log.size = log.capacity) (r : UndoRecord) :
    (log.record r).snapshot = (log.snapshot ++ [r]).tail := by
  have hlength : (r :: log.records).length - 1 = log.capacity := h
  rw [snapshot, record_records, ← hlength, ← List.dropLast_eq_take, ← List.tail_reverse,
    List.reverse_cons, snapshot]

/-- Adding a record keeps everything but what is forgotten, and in the same order. -/
theorem snapshot_record (log : UndoLog) (r : UndoRecord) :
    log.forgets r ++ (log.record r).snapshot = log.snapshot ++ [r] := by
  by_cases h : log.size = log.capacity
  · rw [forgets, if_pos h, snapshot_record_of_full h, ← List.drop_one, List.take_append_drop]
  · have hlt : log.size < log.capacity := Nat.lt_of_le_of_ne log.length_le h
    rw [forgets, if_neg h, snapshot_record_of_lt hlt, List.nil_append]

theorem snapshot_of_pop (h : log.pop? = some (r, rest)) :
    log.snapshot = rest.snapshot ++ [r] := by
  rw [snapshot, (pop?_eq_some h).1, List.reverse_cons, snapshot]

theorem snapshot_eq_nil_iff (log : UndoLog) : log.snapshot = [] ↔ log.pop? = none := by
  rw [snapshot, List.reverse_eq_nil_iff, pop?_eq_none_iff]

end UndoLog

/-- A log, the stack beside it, and what the log has forgotten since it was last cleared. All
records are listed from the oldest one on. -/
structure ShadowedLog where
  log : UndoLog
  stack : List UndoRecord
  forgotten : List UndoRecord

namespace ShadowedLog
variable {s : ShadowedLog}

def empty (capacity : Nat) : ShadowedLog := ⟨.empty capacity, [], []⟩

/-- Both get the request, but where the log has nothing to give the stack is not asked. -/
def after (s : ShadowedLog) : LogRequest → ShadowedLog
  | .record r => ⟨s.log.record r, s.stack ++ [r], s.forgotten ++ s.log.forgets r⟩
  | .pop =>
    match s.log.pop? with
    | some (_, rest) => ⟨rest, s.stack.dropLast, s.forgotten⟩
    | none => s
  | .clear => ⟨s.log.clear, [], []⟩

def run (s : ShadowedLog) (requests : List LogRequest) : ShadowedLog := requests.foldl after s

/-- Every record of the stack is in the log or was forgotten, and those that were forgotten are
older. -/
def Accounted (s : ShadowedLog) : Prop := s.stack = s.forgotten ++ s.log.snapshot

theorem Accounted.after (h : s.Accounted) (q : LogRequest) : (s.after q).Accounted := by
  unfold Accounted at h ⊢
  cases q with
  | record r =>
    calc s.stack ++ [r]
        = s.forgotten ++ (s.log.snapshot ++ [r]) := by rw [h, List.append_assoc]
      _ = s.forgotten ++ (s.log.forgets r ++ (s.log.record r).snapshot) := by
          rw [UndoLog.snapshot_record]
      _ = (s.forgotten ++ s.log.forgets r) ++ (s.log.record r).snapshot :=
          (List.append_assoc _ _ _).symm
  | pop =>
    cases hpop : s.log.pop? with
    | none => simpa only [ShadowedLog.after, hpop] using h
    | some popped =>
      obtain ⟨r, rest⟩ := popped
      simp only [ShadowedLog.after, hpop]
      rw [h, UndoLog.snapshot_of_pop hpop, ← List.append_assoc, List.dropLast_concat]
  | clear => rfl

theorem Accounted.run (h : s.Accounted) (requests : List LogRequest) :
    (s.run requests).Accounted := by
  induction requests generalizing s with
  | nil => exact h
  | cons q requests ih => exact ih (h.after q)

theorem capacity_after (s : ShadowedLog) (q : LogRequest) :
    (s.after q).log.capacity = s.log.capacity := by
  cases q with
  | record r => rfl
  | pop =>
    cases hpop : s.log.pop? with
    | none => simp only [after, hpop]
    | some popped =>
      simp only [after, hpop]
      exact (UndoLog.pop?_eq_some hpop).2
  | clear => rfl

theorem capacity_run (s : ShadowedLog) (requests : List LogRequest) :
    (s.run requests).log.capacity = s.log.capacity := by
  induction requests generalizing s with
  | nil => rfl
  | cons q requests ih => exact (ih (s.after q)).trans (s.capacity_after q)

theorem getLast?_stack (h : s.Accounted) {r : UndoRecord} {rest : UndoLog}
    (hpop : s.log.pop? = some (r, rest)) : s.stack.getLast? = some r := by
  rw [h, UndoLog.snapshot_of_pop hpop, ← List.append_assoc, List.getLast?_concat]

/-- A log never holds more records than it has room for, and those that it holds are the newest part
of the stack beside it; the rest of the stack it has forgotten. A step back gives what is on top of
the stack, if the log holds anything, and leaves the other records alone. A record is forgotten only
when another one is added to a log that is full, and it is then the oldest one. A log without room
stays empty. -/
theorem newest_part_of_stack (capacity : Nat) (requests : List LogRequest) :
    let s := (empty capacity).run requests
    s.log.size ≤ capacity ∧
    s.log.snapshot <:+ s.stack ∧ s.stack = s.forgotten ++ s.log.snapshot ∧
    (s.log.pop? = none ↔ s.log.snapshot = []) ∧
    (∀ r rest, s.log.pop? = some (r, rest) →
      s.stack.getLast? = some r ∧ s.log.snapshot = rest.snapshot ++ [r]) ∧
    (∀ r, s.log.size < capacity → (s.log.record r).snapshot = s.log.snapshot ++ [r]) ∧
    (∀ r, s.log.size = capacity → (s.log.record r).snapshot = (s.log.snapshot ++ [r]).tail) ∧
    s.log.clear.snapshot = [] ∧
    (capacity = 0 → s.log.isEmpty = true) := by
  intro s
  have hstart : (empty capacity).Accounted := rfl
  have haccounted : s.Accounted := hstart.run requests
  have hcapacity : s.log.capacity = capacity := capacity_run _ requests
  have hsize : s.log.size ≤ capacity := hcapacity ▸ s.log.length_le
  refine ⟨hsize, ⟨s.forgotten, haccounted.symm⟩, haccounted, s.log.snapshot_eq_nil_iff.symm,
    fun r rest hpop => ⟨getLast?_stack haccounted hpop, UndoLog.snapshot_of_pop hpop⟩,
    fun r hlt => UndoLog.snapshot_record_of_lt (hcapacity.symm ▸ hlt) r,
    fun r hfull => UndoLog.snapshot_record_of_full (hfull.trans hcapacity.symm) r, rfl, ?_⟩
  rintro rfl
  exact List.isEmpty_iff_length_eq_zero.mpr (Nat.le_zero.mp hsize)

/-- Of five records the log with room for two forgets the first one, gives the third one back and
forgets the second one. -/
theorem newest_two_of_five :
    let counter (n : UInt64) := UndoRecord.programCounter n
    let s := (empty 2).run [.record (counter 1), .record (counter 2), .record (counter 3), .pop,
      .record (counter 4), .record (counter 5)]
    s.log.snapshot = [counter 4, counter 5] ∧ s.log.snapshot <:+ s.stack ∧
      s.forgotten = [counter 1, counter 2] ∧ s.stack = s.forgotten ++ s.log.snapshot ∧
      s.stack.getLast? = some (counter 5) ∧
      (s.log.record (counter 6)).snapshot = [counter 5, counter 6] := by
  intro counter s
  obtain ⟨-, hsuffix, hstack, -, hpop, -, hfull, -⟩ := newest_part_of_stack 2
    [.record (counter 1), .record (counter 2), .record (counter 3), .pop, .record (counter 4),
      .record (counter 5)]
  exact ⟨rfl, hsuffix, rfl, hstack, (hpop (counter 5) ⟨2, [counter 4], by decide⟩ rfl).1,
    hfull (counter 6) rfl⟩

end ShadowedLog
end ArchState
