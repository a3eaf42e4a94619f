import ArchState.Proofs.Machine.Mutation

/-! # What operations record

An operation is refused and changes nothing, or it is recorded. The record of a recorded one
undoes it in every machine that agrees with what the operation has left. Each part of the
machine has one lemma that lifts what was proved about the part alone.
-/
namespace ArchState

/-- Whether writing a record back takes every machine that agrees with `later` to one that
agrees with `earlier`, without an error, a new record or a change of the log. -/
def UndoRecord.Undoes (record : UndoRecord) (later earlier : Machine) : Prop :=
  ∀ x : Machine, x.Agrees later →
    (x.restore record).answer = .ok () ∧ (x.restore record).state.Agrees earlier ∧
      (x.restore record).state.log = x.log ∧
      ∀ sink, Signal.recordsTo sink (x.restore record).signals = []

namespace Machine
variable {m : Machine} {α β : Type} {record : UndoRecord} {c : Nat}

structure Refused (m : Machine) (s : Step Machine α) : Prop where
  state : s.state = m
  silent : ∀ sink, Signal.recordsTo sink s.signals = []

/-- An operation that has sent one record, which undoes it. -/
structure Recorded (m : Machine) (s : Step Machine α) (record : UndoRecord) : Prop where
  sent : Signal.recordsTo .log s.signals = [record]
  log : s.state.log = m.log.map (·.record record)
  logs : ∀ c, m.Logs c → s.state.Logs c
  decoder : s.state.memory.decoder = m.memory.decoder
  undone : record.Undoes s.state m

theorem Refused.map {s : Step Machine α} (h : m.Refused s) (f : α → β) : m.Refused (s.map f) :=
  ⟨h.state, h.silent⟩

theorem Recorded.map {s : Step Machine α} (h : m.Recorded s record) (f : α → β) :
    m.Recorded (s.map f) record := ⟨h.sent, h.log, h.logs, h.decoder, h.undone⟩

theorem whole_of_silent {σ : Type} {s : Step σ α} {put : σ → Machine}
    (h : Signal.recordsTo .log s.signals = []) :
    whole s put = ⟨s.answer, put s.state, s.signals⟩ := by
  rw [whole, keepRecords, h]
  simp

theorem whole_of_one {σ : Type} {s : Step σ α} {put : σ → Machine}
    (h : Signal.recordsTo .log s.signals = [record]) :
    whole s put =
      ⟨s.answer, { put s.state with log := (put s.state).log.map (·.record record) },
        s.signals⟩ := by
  rw [whole, keepRecords, h]
  rfl

theorem Logs.recorded (h : m.Logs c) :
    ∃ log, m.log.map (·.record record) = some log ∧ log.capacity = c := by
  obtain ⟨log, hlog, hc⟩ := h.log
  rw [hlog]
  exact ⟨_, rfl, hc⟩

def Decided (m : Machine) (op : Mutation) : Prop :=
  (m.refuses op = true ∧ m.Refused (m.mutate op)) ∨
    (m.refuses op = false ∧ ∃ record, m.Recorded (m.mutate op) record)

theorem refuses_of_error {op : Mutation} {fault : AddressFault}
    (h : (m.mutate op).answer = .error fault) : m.refuses op = true := by
  rw [refuses, h]

theorem refuses_of_none {op : Mutation} (h : (m.mutate op).answer = .ok none) :
    m.refuses op = true := by
  rw [refuses, h]

theorem refuses_of_some {op : Mutation} {old : UInt64} (h : (m.mutate op).answer = .ok (some old)) :
    m.refuses op = op.writesZero := by
  rw [refuses, h]

end Machine
end ArchState
