/-! # Undo records and the undo log

A record holds what a place contained before it was changed. A sink receives records; the
log is the sink that a machine brings along, a stack that forgets its oldest records.
-/
namespace ArchState

/-- The previous contents of one register, of the program counter or of some bytes of memory. -/
inductive UndoRecord where
  | register (number : Int) (value : UInt64)
  | floatRegister (number : Int) (value : UInt64)
  | controlRegister (number : Int) (value : UInt64)
  | programCounter (value : UInt64)
  | word (address value : UInt32)
  | half (address value : UInt32)
  | byte (address value : UInt32)
  | rawWord (address value : UInt32)
  | doubleWord (address : UInt32) (value : UInt64)
  deriving DecidableEq, Repr

/-- A receiver of undo records: the log of the machine itself or a recorder outside. -/
inductive Sink where
  | log
  | recorder (number : Nat)
  deriving DecidableEq, Repr

/-- A stack of at most `capacity` records, newest first. -/
structure UndoLog where
  capacity : Nat
  records : List UndoRecord
  length_le : records.length ≤ capacity

namespace UndoLog

def empty (capacity : Nat) : UndoLog := ⟨capacity, [], Nat.zero_le _⟩

/-- Adds a record; the oldest one is dropped when the log is full. -/
def record (log : UndoLog) (r : UndoRecord) : UndoLog where
  capacity := log.capacity
  records := (r :: log.records).take log.capacity
  length_le := by rw [List.length_take]; exact Nat.min_le_left _ _

def pop? (log : UndoLog) : Option (UndoRecord × UndoLog) :=
  match log with
  | ⟨_, [], _⟩ => none
  | ⟨capacity, r :: rest, h⟩ => some (r, ⟨capacity, rest, Nat.le_of_succ_le h⟩)

def clear (log : UndoLog) : UndoLog := empty log.capacity

def size (log : UndoLog) : Nat := log.records.length

def isEmpty (log : UndoLog) : Bool := log.records.isEmpty

/-- The records, oldest first. -/
def snapshot (log : UndoLog) : List UndoRecord := log.records.reverse

@[simp] theorem record_records (log : UndoLog) (r : UndoRecord) :
    (log.record r).records = (r :: log.records).take log.capacity := rfl

theorem pop?_eq_none_iff (log : UndoLog) : log.pop? = none ↔ log.records = [] := by
  obtain ⟨capacity, records, h⟩ := log
  cases records <;> simp [pop?]

theorem pop?_eq_some {log rest : UndoLog} {r : UndoRecord} (h : log.pop? = some (r, rest)) :
    log.records = r :: rest.records ∧ rest.capacity = log.capacity := by
  obtain ⟨capacity, records, hl⟩ := log
  cases records with
  | nil => simp [pop?] at h
  | cons x xs =>
    simp only [pop?, Option.some.injEq, Prod.mk.injEq] at h
    obtain ⟨rfl, rfl⟩ := h
    exact ⟨rfl, rfl⟩

theorem pop?_of_records {log : UndoLog} {r : UndoRecord} {rest : List UndoRecord}
    (h : log.records = r :: rest) : ∃ left, log.pop? = some (r, left) ∧ left.records = rest := by
  obtain ⟨capacity, records, hl⟩ := log
  subst h
  exact ⟨_, rfl, rfl⟩

end UndoLog
end ArchState
