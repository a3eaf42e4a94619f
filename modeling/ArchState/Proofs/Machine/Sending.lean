import ArchState.Proofs.Machine.Request
import ArchState.Proofs.Machine.StaleLog
import ArchState.Proofs.Memory.Notices

/-! # What the parts of a machine send

Memory and the register files have a sink each. A request to one of them sends its records to the
sink of this part and to no other, and it leaves the sink attached unless it attaches another one.
A write that is made sends one record, and a write that is refused sends none.
-/
namespace ArchState

/-- The records among `signals` are `records`, and all of them go to `sink`. -/
def Signal.SentTo (sink : Option Sink) (records : List UndoRecord) (signals : List Signal) : Prop :=
  ∀ target, recordsTo target signals = if sink = some target then records else []

namespace Signal
variable {sink : Option Sink} {records others : List UndoRecord} {signals more : List Signal}

theorem sentTo_of_silent (sink : Option Sink) (h : ∀ target, recordsTo target signals = []) :
    SentTo sink [] signals := by
  intro target
  rw [h, ite_self]

theorem SentTo.append (hx : SentTo sink records signals) (hy : SentTo sink others more) :
    SentTo sink (records ++ others) (signals ++ more) := by
  intro target
  rw [recordsTo_append, hx, hy]
  split <;> rfl

theorem sentTo_signals (sink : Option Sink) (record : UndoRecord) :
    SentTo sink [record] (Sink.signals sink record) := by
  intro target
  cases sink with
  | none => rfl
  | some attached =>
    by_cases h : attached = target
    · rw [h, Sink.recordsTo_signals, if_pos rfl]
    · rw [if_neg (by simpa using h)]
      simp [recordsTo, Sink.signals, h]

/-- Without a sink no record is sent to anybody. -/
theorem SentTo.silent (h : SentTo none records signals) (target : Sink) :
    recordsTo target signals = [] := h target

end Signal

theorem recordsTo_flatMap_delivered (target : Sink) (registrations : List Registration)
    (ns : List MemoryNotice) :
    Signal.recordsTo target (ns.flatMap (delivered registrations)) = [] := by
  rw [Signal.recordsTo, List.filterMap_eq_nil_iff]
  intro s hs
  obtain ⟨n, -, hn⟩ := List.mem_flatMap.mp hs
  obtain ⟨r, -, rfl⟩ := List.mem_map.mp hn
  rfl

namespace Step
variable {σ α β : Type} {sinkOf : σ → Option Sink} {start state : σ} {s : Step σ α}
  {records : List UndoRecord} {made : Bool}

/-- A step from `start` sends `records` to the sink of `start` and leaves this sink attached. -/
structure Sends (sinkOf : σ → Option Sink) (start : σ) (records : List UndoRecord) (s : Step σ α) :
    Prop where
  kept : sinkOf s.state = sinkOf start
  sent : Signal.SentTo (sinkOf start) records s.signals

/-- A step from `start` sends one record if `made` says so, and none if not. -/
def SendsOne (sinkOf : σ → Option Sink) (start : σ) (made : Bool) (s : Step σ α) : Prop :=
  ∃ records, records.length = made.toNat ∧ s.Sends sinkOf start records

theorem sends_of_silent (kept : sinkOf s.state = sinkOf start)
    (silent : ∀ target, Signal.recordsTo target s.signals = []) : s.Sends sinkOf start [] :=
  ⟨kept, Signal.sentTo_of_silent _ silent⟩

theorem sends_quiet (kept : sinkOf state = sinkOf start) (answer : α) :
    (quiet answer state).Sends sinkOf start [] := sends_of_silent kept fun _ => rfl

theorem Sends.map (h : s.Sends sinkOf start records) (f : α → β) :
    (s.map f).Sends sinkOf start records := ⟨h.kept, h.sent⟩

theorem Sends.sending (h : s.Sends sinkOf start records) (record : UndoRecord) :
    (s.sending (Sink.signals (sinkOf start) record)).Sends sinkOf start (records ++ [record]) :=
  ⟨h.kept, h.sent.append (Signal.sentTo_signals _ record)⟩

/-- Notices before a step are no records. -/
theorem Sends.after_notices {notices : List Signal} (h : s.Sends sinkOf start records)
    (silent : ∀ target, Signal.recordsTo target notices = []) :
    Sends sinkOf start records { s with signals := notices ++ s.signals } := by
  refine ⟨h.kept, ?_⟩
  have hsent := (Signal.sentTo_of_silent (sinkOf start) silent).append h.sent
  exact hsent

theorem SendsOne.map (h : s.SendsOne sinkOf start made) (f : α → β) :
    (s.map f).SendsOne sinkOf start made := by
  obtain ⟨records, hlength, hsends⟩ := h
  exact ⟨records, hlength, hsends.map f⟩

theorem sendsOne_of_refused (h : s.Sends sinkOf start []) (hmade : made = false) :
    s.SendsOne sinkOf start made := by
  subst hmade
  exact ⟨[], rfl, h⟩

theorem sendsOne_of_made {r : UndoRecord} (h : s.Sends sinkOf start [r]) (hmade : made = true) :
    s.SendsOne sinkOf start made := by
  subst hmade
  exact ⟨[r], rfl, h⟩

theorem isSome_thenTry {ε : Type} (s : Step σ (Except ε α)) (signals : α → σ → List Signal) :
    (s.thenTry fun old next => ⟨.ok old, next, signals old next⟩).answer.toOption.isSome =
      s.answer.toOption.isSome := by
  rw [thenTry, andThen]
  cases s.answer <;> rfl

/-- A step that may fail records what it answers as soon as it has succeeded. -/
theorem Sends.recorded {ε : Type} {s : Step σ (Except ε α)} (h : s.Sends sinkOf start [])
    (record : α → UndoRecord) :
    SendsOne sinkOf start s.answer.toOption.isSome
      (s.thenTry fun old next => ⟨.ok old, next, Sink.signals (sinkOf next) (record old)⟩) := by
  rw [thenTry, andThen]
  cases s.answer with
  | error e =>
    refine sendsOne_of_refused ⟨h.kept, ?_⟩ rfl
    exact h.sent.append (Signal.sentTo_of_silent _ fun _ => rfl)
  | ok old =>
    refine sendsOne_of_made (r := record old) ⟨h.kept, ?_⟩ rfl
    dsimp only [guarded]
    rw [h.kept]
    exact (h.sending (record old)).sent

theorem SendsOne.sends (h : s.SendsOne sinkOf start made) :
    ∃ records, s.Sends sinkOf start records := by
  obtain ⟨records, -, hsends⟩ := h
  exact ⟨records, hsends⟩

end Step

def MemoryRequest.attaches : MemoryRequest → Bool
  | attach _ => true
  | _ => false

namespace Memory
variable {m : Memory} {id : ObserverId}

theorem sends_set (m : Memory) (a v : UInt32) (length : Nat) :
    (m.set a v length).Sends sink m [] := by
  obtain ⟨image, fits, hframe⟩ := m.set_frame a v length
  refine Step.sends_of_silent ?_ fun target => m.recordsTo_set target a v length
  rw [hframe]
  rfl

theorem sendsOne_setAligned (m : Memory) (a v : UInt32) (length : Nat)
    (record : UInt32 → UInt32 → UndoRecord) :
    (m.setAligned a v length record).SendsOne sink m
      (m.setAligned a v length record).answer.toOption.isSome := by
  by_cases haligned : a.toNat % length = 0
  · rw [setAligned, checkAligned, if_pos haligned, Step.guarded, Step.isSome_thenTry]
    exact (m.sends_set a v length).recorded (record a)
  · rw [setAligned, checkAligned, if_neg haligned]
    exact Step.sendsOne_of_refused (Step.sends_quiet rfl _) rfl

theorem sends_storeDouble (m : Memory) (a : UInt32) (d : UInt64) :
    (m.storeDouble a d).Sends sink m [] := by
  refine Step.sends_of_silent ?_ fun target => m.recordsTo_storeDouble target a d
  rcases m.storeDouble_cases_pair a d with ⟨low, high, hpair⟩ | ⟨fault, hfault⟩
  · rw [storeDouble_of_pair hpair]
    rfl
  · rw [hfault]
    rfl

theorem sendsOne_setDouble (m : Memory) (a : UInt32) (d : UInt64) :
    (m.setDouble a d).SendsOne sink m (m.setDouble a d).answer.toOption.isSome := by
  rw [setDouble, Step.isSome_thenTry]
  exact (m.sends_storeDouble a d).recorded (.doubleWord a)

theorem sends_restore (m : Memory) (record : UndoRecord) : (m.restore record).Sends sink m [] := by
  have hstores : (MemoryRequest.restore record).stores = true := rfl
  obtain ⟨image, fits, hframe⟩ := m.state_stores ⟨0⟩ hstores
  have hstate : (m.restore record).state = m.withImage image fits := hframe
  refine Step.sends_of_silent ?_ fun target => m.recordsTo_restore target record
  rw [hstate]
  rfl

theorem sends_storeAs (m : Memory) (a : UInt32) (d : UInt64) (kind : AccessKind) :
    ∃ records, (m.storeAs a d kind).Sends sink m records := by
  cases kind with
  | bytes length => exact ⟨[], (m.sends_set a _ length).map _⟩
  | byte => exact ((m.sendsOne_setAligned a _ 1 .byte).map _).sends
  | half => exact ((m.sendsOne_setAligned a _ 2 .half).map _).sends
  | word => exact ((m.sendsOne_setAligned a _ 4 .word).map _).sends
  | double => exact ((m.sendsOne_setDouble a d).map _).sends

theorem sends_reading {r : Reading (Except AddressFault Answer)}
    (h : ∀ target, Signal.recordsTo target r.signals = []) : (m.reading r).Sends sink m [] :=
  Step.sends_of_silent rfl h

theorem signals_changing {ε : Type} (m : Memory) (x : Except ε (Answer × Memory)) :
    (m.changing x).signals = [] := by
  cases x <;> rfl

/-- A request that attaches no sink sends its records to the sink that is attached. -/
theorem sends_serve (m : Memory) (id : ObserverId) {request : MemoryRequest}
    (h : request.attaches = false) : ∃ records, (m.serve id request).Sends sink m records := by
  cases request with
  | load kind a =>
    refine ⟨[], sends_reading ?_⟩
    intro target
    rw [signals_loadAs, recordsTo_flatMap_delivered]
  | store kind a d =>
    obtain ⟨records, hsends⟩ := m.sends_storeAs a d kind
    exact ⟨records, hsends.map Except.toOption⟩
  | storeRaw a v =>
    rw [serve]
    exact ((m.sendsOne_setAligned a v 4 .rawWord).map _).sends
  | readStatement a =>
    refine ⟨[], sends_reading ?_⟩
    intro target
    rw [getStatement]
    cases m.fetchStatement a with
    | error fault => rfl
    | ok st => exact m.recordsTo_notify target .read a 4 _
  | restore record =>
    rw [serve]
    exact ⟨[], (m.sends_restore record).map _⟩
  | install a st =>
    obtain ⟨image, fits, hstate⟩ := m.state_install id a st
    refine ⟨[], Step.sends_of_silent (by rw [hstate]; rfl) ?_⟩
    intro target
    rw [serve, signals_changing, Signal.recordsTo_nil]
  | allocate size =>
    obtain ⟨heap, hstate⟩ := m.state_allocate id size
    refine ⟨[], Step.sends_of_silent (by rw [hstate]) ?_⟩
    intro target
    rw [serve, signals_changing, Signal.recordsTo_nil]
  | observe region =>
    obtain ⟨registrations, hstate⟩ := m.state_observe id region
    refine ⟨[], Step.sends_of_silent (by rw [hstate]) ?_⟩
    intro target
    rw [serve, signals_changing, Signal.recordsTo_nil]
  | attach sink => cases h
  | _ => exact ⟨[], Step.sends_of_silent rfl fun _ => rfl⟩

end Memory

theorem Bank.recordsTo_serve {spec : BankSpec} (b : Bank spec) (target : Sink) (i : spec.Position)
    (request : CellRequest) : Signal.recordsTo target (b.serve i request).signals = [] := by
  cases request with
  | set value => exact b.recordsTo_set target i value
  | _ => rfl

/-- A file that sets a cell and makes a record of it sends this record. -/
theorem Bank.sends_set {spec : BankSpec} {σ : Type} {sinkOf : σ → Option Sink} {file next : σ}
    (b : Bank spec) (i : spec.Position) (value : UInt64) (kept : sinkOf next = sinkOf file)
    (record : UndoRecord) :
    Step.Sends sinkOf file [record] ⟨some (b.set i value).answer, next,
      (b.set i value).signals ++ Sink.signals (sinkOf file) record⟩ := by
  refine ⟨kept, ?_⟩
  have hset := Signal.sentTo_of_silent (sinkOf file) fun target => b.recordsTo_set target i value
  exact hset.append (Signal.sentTo_signals _ record)

def IntegerRequest.attaches : IntegerRequest → Bool
  | attach _ => true
  | _ => false

namespace IntegerFile
open Integer
variable {key : RegisterKey}

theorem sends_restorePc (f : IntegerFile) (value : UInt64) :
    (f.restorePc value).Sends sink f [] :=
  Step.sends_of_silent rfl fun target => f.bank.recordsTo_set target programCounter value

theorem sends_restore (f : IntegerFile) (number : Int) (value : UInt64) :
    (f.restore number value).Sends sink f [] := by
  refine Step.sends_of_silent ?_ fun target => f.recordsTo_restore target number value
  unfold restore
  split
  · rfl
  · unfold write
    split <;> rfl

theorem sends_setPc (f : IntegerFile) (a : UInt32) :
    (f.setPc a).Sends sink f [.programCounter (f.restorePc a.toUInt64).answer] :=
  ((f.sends_restorePc _).sending _).map _

/-- Every write but those to register 0 is recorded. -/
theorem sendsOne_update (f : IntegerFile) (key : RegisterKey) (value : UInt64) :
    (f.update key value).SendsOne sink f
      ((f.update key value).answer.isSome && !(Mutation.integer key value).writesZero) := by
  cases h : find? key with
  | none =>
    rw [update_of_none h]
    exact Step.sendsOne_of_refused (Step.sends_quiet rfl _) rfl
  | some i =>
    have hzero : (Mutation.integer key value).writesZero = ((spec.cell i).number == 0) := by
      rw [Mutation.writesZero, h]
      rfl
    rw [hzero]
    by_cases h0 : (spec.cell i).number = 0
    · rw [update_of_zero h h0, h0]
      exact Step.sendsOne_of_refused (Step.sends_quiet rfl _) rfl
    · rw [update_of_some h h0]
      refine Step.sendsOne_of_made (f.bank.sends_set i value (by rfl) _) ?_
      simpa using h0

theorem sends_serve (f : IntegerFile) {request : IntegerRequest} (h : request.attaches = false) :
    ∃ records, (f.serve request).Sends sink f records := by
  have hplace : ∀ value, ((f.restorePc value).map fun _ => ()).Sends sink f [] :=
    fun value => (f.sends_restorePc value).map _
  cases request with
  | update key value => exact ((f.sendsOne_update key value).map fun _ => ()).sends
  | setPc a => exact ⟨_, (f.sends_setPc a).map fun _ => ()⟩
  | placePc a => exact ⟨[], hplace _⟩
  | incrementPc =>
    exact ⟨[], (hplace _).after_notices fun target => f.bank.recordsTo_notify target _ .read⟩
  | enter startAtMain symbols inText => exact ⟨[], hplace _⟩
  | applyLayout l => exact ⟨[], Step.sends_quiet (f.sink_applyLayout l) _⟩
  | reset => exact ⟨[], Step.sends_quiet f.sink_reset _⟩
  | observe id => exact ⟨[], Step.sends_quiet (by rw [observe]) _⟩
  | unobserve id => exact ⟨[], Step.sends_quiet (by rw [unobserve]) _⟩
  | attach sink => cases h
  | cell i request =>
    exact ⟨[], Step.sends_of_silent rfl fun target => f.bank.recordsTo_serve target i request⟩

end IntegerFile

def FloatRequest.attaches : FloatRequest → Bool
  | attach _ => true
  | _ => false

namespace FloatFile
open Floating

theorem sendsOne_write (f : FloatFile) (found : Option spec.Position) (value : UInt64) :
    (f.write found value).SendsOne sink f (f.write found value).answer.isSome := by
  cases found with
  | none =>
    rw [write_none]
    exact Step.sendsOne_of_refused (Step.sends_quiet rfl _) rfl
  | some i =>
    rw [write_some]
    exact Step.sendsOne_of_made (f.bank.sends_set i value (by rfl) _) rfl

theorem sends_serve (f : FloatFile) {request : FloatRequest} (h : request.attaches = false) :
    ∃ records, (f.serve request).Sends sink f records := by
  cases request with
  | update number value => exact ((f.sendsOne_write _ value).map fun _ => ()).sends
  | updateSingle key bits => exact ((f.sendsOne_write _ _).map fun _ => ()).sends
  | reset => exact ⟨[], Step.sends_quiet f.sink_reset _⟩
  | observe id => exact ⟨[], Step.sends_quiet (by rw [observe]) _⟩
  | unobserve id => exact ⟨[], Step.sends_quiet (by rw [unobserve]) _⟩
  | attach sink => cases h
  | cell i request =>
    exact ⟨[], Step.sends_of_silent rfl fun target => f.bank.recordsTo_serve target i request⟩

end FloatFile

def ControlRequest.attaches : ControlRequest → Bool
  | attach _ => true
  | _ => false

namespace ControlFile
open Control

theorem sendsOne_write (f : ControlFile) (i : spec.Position) (value : UInt64) :
    (f.write i value).SendsOne sink f (f.write i value).answer.isSome := by
  cases hw : isReadOnly (spec.cell i).number with
  | true =>
    rw [write_of_readOnly hw]
    exact Step.sendsOne_of_refused (Step.sends_quiet rfl _) rfl
  | false =>
    rw [write_of_writable hw]
    exact Step.sendsOne_of_made (f.bank.sends_set i value (by rfl) _) rfl

theorem sendsOne_update (f : ControlFile) (key : RegisterKey) (value : UInt64) :
    (f.update key value).SendsOne sink f (f.update key value).answer.isSome := by
  unfold update
  split
  · exact Step.sendsOne_of_refused (Step.sends_quiet rfl _) rfl
  · exact f.sendsOne_write _ value

theorem sendsOne_modify (f : ControlFile) (number : Int) (change : UInt64 → UInt64) :
    (f.modify number change).SendsOne sink f (f.modify number change).answer.isSome := by
  unfold modify
  split
  · exact Step.sendsOne_of_refused (Step.sends_quiet rfl _) rfl
  · rename_i i _
    obtain ⟨records, hlength, hsends⟩ := f.sendsOne_write i (change (f.bank.read i))
    exact ⟨records, hlength,
      hsends.after_notices fun target => f.bank.recordsTo_notify target i .read⟩

theorem sink_backdoor (f : ControlFile) (key : RegisterKey) (value : UInt64) :
    (f.backdoor key value).2.sink = f.sink := by
  unfold backdoor
  split <;> rfl

theorem sends_serve (f : ControlFile) {request : ControlRequest} (h : request.attaches = false) :
    ∃ records, (f.serve request).Sends sink f records := by
  cases request with
  | update key value => exact ((f.sendsOne_update key value).map fun _ => ()).sends
  | setBits number mask => exact ((f.sendsOne_modify number _).map fun _ => ()).sends
  | clearBits number mask => exact ((f.sendsOne_modify number _).map fun _ => ()).sends
  | backdoor key value => exact ⟨[], Step.sends_quiet (f.sink_backdoor key value) _⟩
  | reset => exact ⟨[], Step.sends_quiet f.sink_reset _⟩
  | observe id => exact ⟨[], Step.sends_quiet (by rw [observe]) _⟩
  | unobserve id => exact ⟨[], Step.sends_quiet (by rw [unobserve]) _⟩
  | attach sink => cases h
  | cell i request =>
    exact ⟨[], Step.sends_of_silent rfl fun target => f.bank.recordsTo_serve target i request⟩

end ControlFile
end ArchState
