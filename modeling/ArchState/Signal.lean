import ArchState.Access
import ArchState.Undo

/-! # Signals

What a state sends out while it is read or changed: notices to the observers that are
registered and undo records to the sink that is attached. A reading answers and sends; a
step leaves a new state as well, also when it fails. Signals stand in the order in which
they are sent.
-/
namespace ArchState

inductive Signal where
  | memory (observer : ObserverId) (notice : MemoryNotice)
  | register (observer : ObserverId) (notice : RegisterNotice)
  | reservations (observer : ObserverId) (rows : List (List String))
  | undo (target : Sink) (record : UndoRecord)
  deriving DecidableEq, Repr

def Signal.recordsTo (sink : Sink) (signals : List Signal) : List UndoRecord :=
  signals.filterMap fun
    | .undo target record => if target = sink then some record else none
    | _ => none

/-- The signal that carries `record` to an attached sink, if there is one. -/
def Sink.signals (sink : Option Sink) (record : UndoRecord) : List Signal :=
  match sink with
  | some target => [.undo target record]
  | none => []

@[simp] theorem Signal.recordsTo_nil (sink : Sink) : recordsTo sink [] = [] := rfl

@[simp] theorem Signal.recordsTo_append (sink : Sink) (xs ys : List Signal) :
    recordsTo sink (xs ++ ys) = recordsTo sink xs ++ recordsTo sink ys :=
  List.filterMap_append

@[simp] theorem Sink.recordsTo_signals (sink : Sink) (record : UndoRecord) :
    Signal.recordsTo sink (signals (some sink) record) = [record] := by
  simp [Signal.recordsTo, signals]

/-- What an operation that changes nothing answers and sends. -/
structure Reading (α : Type) where
  answer : α
  signals : List Signal

/-- What an operation answers, the state it leaves and what it sends. -/
structure Step (σ α : Type) where
  answer : α
  state : σ
  signals : List Signal

namespace Reading
variable {α β γ ε : Type}

def map (f : α → β) (r : Reading α) : Reading β := ⟨f r.answer, r.signals⟩

/-- A reading that is made if a check succeeds. Otherwise it answers the error and sends nothing. -/
def guarded (check : Except ε γ) (next : γ → Reading (Except ε α)) : Reading (Except ε α) :=
  match check with
  | .ok c => next c
  | .error e => ⟨.error e, []⟩

end Reading

namespace Step
variable {σ τ α β : Type}

def quiet (answer : α) (state : σ) : Step σ α := ⟨answer, state, []⟩

def map (f : α → β) (s : Step σ α) : Step σ β := { s with answer := f s.answer }

def within (put : σ → τ) (s : Step σ α) : Step τ α := { s with state := put s.state }

def andThen (s : Step σ α) (next : α → σ → Step σ β) : Step σ β :=
  let t := next s.answer s.state
  ⟨t.answer, t.state, s.signals ++ t.signals⟩

/-- An operation that is made on `state` if a check succeeds, and not at all otherwise. -/
def guarded {ε γ : Type} (check : Except ε γ) (state : σ) (next : γ → Step σ (Except ε α)) :
    Step σ (Except ε α) :=
  match check with
  | .ok c => next c
  | .error e => .quiet (.error e) state

/-- A second operation on what the first one leaves, unless the first one failed. -/
def thenTry {ε : Type} (s : Step σ (Except ε α)) (next : α → σ → Step σ (Except ε β)) :
    Step σ (Except ε β) :=
  s.andThen fun answer state => guarded answer state fun a => next a state

def sending (s : Step σ α) (signals : List Signal) : Step σ α :=
  { s with signals := s.signals ++ signals }

end Step
end ArchState
