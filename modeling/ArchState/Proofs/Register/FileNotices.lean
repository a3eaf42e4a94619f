import ArchState.Proofs.Register.Notices

/-! # Notices of register files

A file is observed as a whole, the integer one with its program counter. Ordinary writes to
register 0 and to control registers that are read-only are no accesses to these registers, and a
control register whose bits are changed is read first.
-/
namespace ArchState

namespace Integer

/-- The access that a write to the file makes: none if it is to register 0. -/
def written (i : spec.Position) : List (spec.Position × Access) :=
  if (spec.cell i).number = 0 then [] else [(i, .write)]

/-- The registers of the block and the program counter. -/
def observed : List spec.Position := block.members ++ [programCounter]

theorem bank_written (i : spec.Position) : BankSpec.written i = [(i, .write)] := by
  rw [BankSpec.written, BankSpec.isReadOnly_plain (kind_plain i)]
  rfl

end Integer

def IntegerRequest.roster : IntegerRequest → Integer.spec.Position → List RosterEvent
  | observe id => BankSpec.among Integer.observed (.joined id)
  | unobserve id => BankSpec.among Integer.observed (.left id)
  | cell i request => request.roster i
  | _ => fun _ => []

def IntegerRequest.accesses : IntegerRequest → List (Integer.spec.Position × Access)
  | update key _ => (Integer.find? key).toList.flatMap Integer.written
  | setPc _ | placePc _ | enter _ _ _ => [(Integer.programCounter, .write)]
  | incrementPc => [(Integer.programCounter, .read), (Integer.programCounter, .write)]
  | cell i request => request.accesses i
  | _ => []

/-- The calls to an integer file and to its cells. -/
inductive IntegerCall where
  | request (r : IntegerRequest)
  | value (key : RegisterKey)
  | signedLow (key : RegisterKey)
  | pc
  | restore (number : Int) (value : UInt64)
  | restorePc (value : UInt64)
  | bank (call : BankCall Integer.spec)

namespace IntegerCall

def roster : IntegerCall → Integer.spec.Position → List RosterEvent
  | request r => r.roster
  | bank call => call.roster
  | _ => fun _ => []

def accesses : IntegerCall → List (Integer.spec.Position × Access)
  | request r => r.accesses
  | value key | signedLow key => (Integer.find? key).toList.map fun i => (i, .read)
  | pc => [(Integer.programCounter, .read)]
  | restore number _ => (Integer.block.byNumber? number).toList.flatMap Integer.written
  | restorePc _ => [(Integer.programCounter, .write)]
  | bank call => call.accesses

end IntegerCall

namespace IntegerFile
open Integer
variable (f : IntegerFile)

def answer (f : IntegerFile) : IntegerCall → Step IntegerFile Unit
  | .request r => f.serve r
  | .value key => (f.value key).step f
  | .signedLow key => (f.signedLow key).step f
  | .pc => f.pc.step f
  | .restore number value => f.restore number value
  | .restorePc value => (f.restorePc value).map fun _ => ()
  | .bank call => (f.bank.answer call).within fun bank => { f with bank }

theorem observers_write (i : spec.Position) (value : UInt64) :
    (f.write i value).state.bank.observers = f.bank.observers := by
  unfold write
  split
  · rfl
  · exact f.bank.observers_set i value

theorem observers_update (key : RegisterKey) (value : UInt64) :
    (f.update key value).state.bank.observers = f.bank.observers := by
  unfold update
  split
  · rfl
  · exact f.observers_write _ value

theorem observers_restore (number : Int) (value : UInt64) :
    (f.restore number value).state.bank.observers = f.bank.observers := by
  unfold restore
  split
  · rfl
  · exact f.observers_write _ value

theorem observers_restorePc (value : UInt64) :
    (f.restorePc value).state.bank.observers = f.bank.observers :=
  f.bank.observers_set programCounter value

theorem observers_reset : f.reset.bank.observers = f.bank.observers := by
  rw [reset, Bank.observers_reset, RegisterBlock.observers_reset]

theorem observers_observe (id : ObserverId) (i : spec.Position) :
    (f.observe id).bank.observers.get i =
      (BankSpec.among observed (.joined id) i).foldl RosterEvent.apply
        (f.bank.observers.get i) := by
  rw [observed, BankSpec.among_append, List.foldl_append, ← RegisterBlock.observers_observe,
    ← Bank.observers_observe]
  rfl

theorem observers_unobserve (id : ObserverId) (i : spec.Position) :
    (f.unobserve id).bank.observers.get i =
      (BankSpec.among observed (.left id) i).foldl RosterEvent.apply (f.bank.observers.get i) := by
  rw [observed, BankSpec.among_append, List.foldl_append, ← RegisterBlock.observers_unobserve,
    ← Bank.observers_unobserve]
  rfl

theorem observers_serve (r : IntegerRequest) (i : spec.Position) :
    (f.serve r).state.bank.observers.get i =
      (r.roster i).foldl RosterEvent.apply (f.bank.observers.get i) := by
  cases r with
  | update key value => exact congrArg (·.get i) (f.observers_update key value)
  | setPc a => exact congrArg (·.get i) (f.observers_restorePc _)
  | placePc a => exact congrArg (·.get i) (f.observers_restorePc _)
  | incrementPc => exact congrArg (·.get i) (f.observers_restorePc _)
  | enter startAtMain symbols inText => exact congrArg (·.get i) (f.observers_restorePc _)
  | applyLayout l => rfl
  | reset => exact congrArg (·.get i) f.observers_reset
  | observe id => exact f.observers_observe id i
  | unobserve id => exact f.observers_unobserve id i
  | attach sink => rfl
  | cell j request => exact f.bank.observers_serve j request i

theorem notices_write (i : spec.Position) (value : UInt64) :
    Signal.notices (f.write i value).signals = f.bank.tell (written i) := by
  unfold write written
  split
  · rfl
  · rw [← bank_written]
    exact f.bank.notices_set i value

theorem notices_update (key : RegisterKey) (value : UInt64) :
    Signal.notices (f.update key value).signals =
      f.bank.tell ((find? key).toList.flatMap written) := by
  unfold update
  cases find? key with
  | none => rfl
  | some i =>
    have hrecord : Signal.notices (if (spec.cell i).number = 0 then [] else
        Sink.signals f.sink (.register (spec.cell i).number (f.write i value).answer)) = [] := by
      split
      · rfl
      · exact Sink.notices_signals ..
    rw [Option.toList_some, List.flatMap_singleton, ← notices_write f i value]
    refine (Signal.notices_append ..).trans ?_
    rw [hrecord, List.append_nil]

theorem notices_restore (number : Int) (value : UInt64) :
    Signal.notices (f.restore number value).signals =
      f.bank.tell ((block.byNumber? number).toList.flatMap written) := by
  unfold restore
  cases block.byNumber? number with
  | none => rfl
  | some i =>
    rw [Option.toList_some, List.flatMap_singleton]
    exact f.notices_write i value

theorem notices_restorePc (value : UInt64) : Signal.notices (f.restorePc value).signals =
    f.bank.tell [(programCounter, .write)] := by
  rw [← bank_written]
  exact f.bank.notices_set programCounter value

theorem notices_incrementPc : Signal.notices f.incrementPc.signals =
    f.bank.tell [(programCounter, .read), (programCounter, .write)] := by
  rw [← List.singleton_append, Bank.tell_append, ← notices_restorePc f (f.pc.answer + 4).toUInt64,
    ← Bank.notices_notify]
  exact Signal.notices_append ..

theorem notices_serve (r : IntegerRequest) :
    Signal.notices (f.serve r).signals = f.bank.tell r.accesses := by
  cases r with
  | update key value => exact f.notices_update key value
  | setPc a =>
    refine (Signal.notices_append ..).trans ?_
    rw [Sink.notices_signals, List.append_nil]
    exact f.notices_restorePc _
  | placePc a => exact f.notices_restorePc _
  | incrementPc => exact f.notices_incrementPc
  | enter startAtMain symbols inText => exact f.notices_restorePc _
  | cell j request => exact f.bank.notices_serve j request
  | applyLayout _ | reset | observe _ | unobserve _ | attach _ => rfl

theorem notices_value (key : RegisterKey) : Signal.notices (f.value key).signals =
    f.bank.tell ((find? key).toList.map fun i => (i, .read)) := by
  unfold value
  cases find? key with
  | none => rfl
  | some i => exact f.bank.notices_notify i .read

def system : RegisterSystem spec IntegerFile IntegerCall where
  bank := bank
  serve := answer
  roster := IntegerCall.roster
  accesses := IntegerCall.accesses
  observers_serve f call i := by
    cases call with
    | request r => exact f.observers_serve r i
    | value key | signedLow key => rfl
    | pc => rfl
    | restore number value => exact congrArg (·.get i) (f.observers_restore number value)
    | restorePc value => exact congrArg (·.get i) (f.observers_restorePc value)
    | bank call => exact (Bank.system spec).observers_serve f.bank call i
  notices_serve f call := by
    cases call with
    | request r => exact f.notices_serve r
    | value key | signedLow key => exact f.notices_value key
    | pc => exact f.bank.notices_notify programCounter .read
    | restore number value => exact f.notices_restore number value
    | restorePc value => exact f.notices_restorePc value
    | bank call => exact (Bank.system spec).notices_serve f.bank call

theorem observedTogether : system.ObservedTogether observed (fun id => .request (.observe id))
    (fun id => .request (.unobserve id)) :=
  system.observedTogether (by decide) (fun _ => rfl) fun _ => rfl

theorem observedTogether_cell (j : spec.Position) : system.ObservedTogether [j]
    (fun id => .request (.cell j (.observe id))) (fun id => .request (.cell j (.unobserve id))) :=
  system.observedTogether (List.nodup_singleton j) (fun _ => rfl) fun _ => rfl

end IntegerFile

namespace Floating

theorem bank_written (i : spec.Position) : BankSpec.written i = [(i, .write)] := by
  rw [BankSpec.written, BankSpec.isReadOnly_plain (kind_plain i)]
  rfl

end Floating

def FloatRequest.roster : FloatRequest → Floating.spec.Position → List RosterEvent
  | observe id => BankSpec.among Floating.block.members (.joined id)
  | unobserve id => BankSpec.among Floating.block.members (.left id)
  | cell i request => request.roster i
  | _ => fun _ => []

def FloatRequest.accesses : FloatRequest → List (Floating.spec.Position × Access)
  | update number _ => (Floating.block.byNumber? number).toList.map fun i => (i, .write)
  | updateSingle key _ => (Floating.block.find? key).toList.map fun i => (i, .write)
  | cell i request => request.accesses i
  | _ => []

/-- The calls to a floating-point file and to its cells. -/
inductive FloatCall where
  | request (r : FloatRequest)
  | value (key : RegisterKey)
  | single (key : RegisterKey)
  | restore (number : Int) (value : UInt64)
  | bank (call : BankCall Floating.spec)

namespace FloatCall

def roster : FloatCall → Floating.spec.Position → List RosterEvent
  | request r => r.roster
  | bank call => call.roster
  | _ => fun _ => []

def accesses : FloatCall → List (Floating.spec.Position × Access)
  | request r => r.accesses
  | value key | single key => (Floating.block.find? key).toList.map fun i => (i, .read)
  | restore number _ => (Floating.block.byNumber? number).toList.map fun i => (i, .write)
  | bank call => call.accesses

end FloatCall

namespace FloatFile
open Floating
variable (f : FloatFile)

def answer (f : FloatFile) : FloatCall → Step FloatFile Unit
  | .request r => f.serve r
  | .value key => (f.value key).step f
  | .single key => (f.single key).step f
  | .restore number value => f.restore number value
  | .bank call => (f.bank.answer call).within fun bank => { f with bank }

theorem observers_write (found : Option spec.Position) (value : UInt64) :
    (f.write found value).state.bank.observers = f.bank.observers := by
  cases found with
  | none => rfl
  | some i => exact f.bank.observers_set i value

theorem observers_serve (r : FloatRequest) (i : spec.Position) :
    (f.serve r).state.bank.observers.get i =
      (r.roster i).foldl RosterEvent.apply (f.bank.observers.get i) := by
  cases r with
  | update number value => exact congrArg (·.get i) (f.observers_write _ value)
  | updateSingle key bits => exact congrArg (·.get i) (f.observers_write _ _)
  | reset => exact congrArg (·.get i) (block.observers_reset f.bank)
  | observe id => exact block.observers_observe f.bank id i
  | unobserve id => exact block.observers_unobserve f.bank id i
  | attach sink => rfl
  | cell j request => exact f.bank.observers_serve j request i

theorem notices_write (found : Option spec.Position) (value : UInt64) :
    Signal.notices (f.write found value).signals =
      f.bank.tell (found.toList.map fun i => (i, .write)) := by
  cases found with
  | none => rfl
  | some i =>
    refine (Signal.notices_append ..).trans ?_
    rw [Sink.notices_signals, List.append_nil, Option.toList_some, List.map_singleton,
      ← bank_written]
    exact f.bank.notices_set i value

theorem notices_restore (number : Int) (value : UInt64) :
    Signal.notices (f.restore number value).signals =
      f.bank.tell ((block.byNumber? number).toList.map fun i => (i, .write)) := by
  have hwritten : (block.byNumber? number).toList.flatMap BankSpec.written =
      (block.byNumber? number).toList.map fun i => (i, .write) := by
    cases block.byNumber? number with
    | none => rfl
    | some i => exact (List.flatMap_singleton ..).trans (bank_written i)
  rw [← hwritten]
  exact block.notices_update f.bank (.number number) value

theorem notices_serve (r : FloatRequest) :
    Signal.notices (f.serve r).signals = f.bank.tell r.accesses := by
  cases r with
  | update number value => exact f.notices_write _ value
  | updateSingle key bits => exact f.notices_write _ _
  | cell j request => exact f.bank.notices_serve j request
  | reset | observe _ | unobserve _ | attach _ => rfl

def system : RegisterSystem spec FloatFile FloatCall where
  bank := bank
  serve := answer
  roster := FloatCall.roster
  accesses := FloatCall.accesses
  observers_serve f call i := by
    cases call with
    | request r => exact f.observers_serve r i
    | value key => rfl
    | single key => rfl
    | restore number value =>
      exact congrArg (·.get i) (block.observers_update f.bank (.number number) value)
    | bank call => exact (Bank.system spec).observers_serve f.bank call i
  notices_serve f call := by
    cases call with
    | request r => exact f.notices_serve r
    | value key => exact block.notices_value f.bank key
    | single key => exact block.notices_value f.bank key
    | restore number value => exact f.notices_restore number value
    | bank call => exact (Bank.system spec).notices_serve f.bank call

theorem observedTogether : system.ObservedTogether block.members
    (fun id => .request (.observe id)) (fun id => .request (.unobserve id)) :=
  system.observedTogether (by decide) (fun _ => rfl) fun _ => rfl

theorem observedTogether_cell (j : spec.Position) : system.ObservedTogether [j]
    (fun id => .request (.cell j (.observe id))) (fun id => .request (.cell j (.unobserve id))) :=
  system.observedTogether (List.nodup_singleton j) (fun _ => rfl) fun _ => rfl

end FloatFile

namespace Control

/-- The access that an ordinary write to the file makes: none if it is to a number that is
read-only. -/
def written (i : spec.Position) : List (spec.Position × Access) :=
  if isReadOnly (spec.cell i).number then [] else [(i, .write)]

end Control

def ControlRequest.roster : ControlRequest → Control.spec.Position → List RosterEvent
  | observe id => BankSpec.among Control.block.members (.joined id)
  | unobserve id => BankSpec.among Control.block.members (.left id)
  | cell i request => request.roster i
  | _ => fun _ => []

def ControlRequest.accesses : ControlRequest → List (Control.spec.Position × Access)
  | update key _ => (Control.block.find? key).toList.flatMap Control.written
  | setBits number _ | clearBits number _ =>
    (Control.block.byNumber? number).toList.flatMap fun i => (i, .read) :: Control.written i
  | cell i request => request.accesses i
  | _ => []

/-- The calls to a control file and to its cells. -/
inductive ControlCall where
  | request (r : ControlRequest)
  | value (key : RegisterKey)
  | signedLow (key : RegisterKey)
  | peek (number : Int)
  | bank (call : BankCall Control.spec)

namespace ControlCall

def roster : ControlCall → Control.spec.Position → List RosterEvent
  | request r => r.roster
  | bank call => call.roster
  | _ => fun _ => []

def accesses : ControlCall → List (Control.spec.Position × Access)
  | request r => r.accesses
  | value key | signedLow key => (Control.block.find? key).toList.map fun i => (i, .read)
  | peek _ => []
  | bank call => call.accesses

end ControlCall

namespace ControlFile
open Control
variable (f : ControlFile)

def answer (f : ControlFile) : ControlCall → Step ControlFile Unit
  | .request r => f.serve r
  | .value key => (f.value key).step f
  | .signedLow key => (f.signedLow key).step f
  | .peek number => (Step.quiet (f.peek number) f).map fun _ => ()
  | .bank call => (f.bank.answer call).within fun bank => { f with bank }

theorem observers_write (i : spec.Position) (value : UInt64) :
    (f.write i value).state.bank.observers = f.bank.observers := by
  cases hw : isReadOnly (spec.cell i).number with
  | true => rw [write_of_readOnly hw, Step.quiet]
  | false =>
    rw [write_of_writable hw]
    exact f.bank.observers_set i value

theorem observers_update (key : RegisterKey) (value : UInt64) :
    (f.update key value).state.bank.observers = f.bank.observers := by
  unfold update
  split
  · rfl
  · exact f.observers_write _ value

theorem observers_modify (number : Int) (change : UInt64 → UInt64) :
    (f.modify number change).state.bank.observers = f.bank.observers := by
  unfold modify
  split
  · rfl
  · exact f.observers_write _ _

theorem observers_backdoor (key : RegisterKey) (value : UInt64) :
    (f.backdoor key value).2.bank.observers = f.bank.observers := by
  unfold backdoor
  split <;> rfl

theorem observers_serve (r : ControlRequest) (i : spec.Position) :
    (f.serve r).state.bank.observers.get i =
      (r.roster i).foldl RosterEvent.apply (f.bank.observers.get i) := by
  cases r with
  | update key value => exact congrArg (·.get i) (f.observers_update key value)
  | setBits number mask => exact congrArg (·.get i) (f.observers_modify number _)
  | clearBits number mask => exact congrArg (·.get i) (f.observers_modify number _)
  | backdoor key value => exact congrArg (·.get i) (f.observers_backdoor key value)
  | reset => exact congrArg (·.get i) (block.observers_reset f.bank)
  | observe id => exact block.observers_observe f.bank id i
  | unobserve id => exact block.observers_unobserve f.bank id i
  | attach sink => rfl
  | cell j request => exact f.bank.observers_serve j request i

theorem notices_write (i : spec.Position) (value : UInt64) :
    Signal.notices (f.write i value).signals = f.bank.tell (written i) := by
  cases hw : isReadOnly (spec.cell i).number with
  | true =>
    rw [write_of_readOnly hw, written, hw]
    rfl
  | false =>
    have hbank : BankSpec.written i = [(i, .write)] := by
      rw [BankSpec.written, isReadOnly_cell i hw]
      rfl
    rw [write_of_writable hw, Signal.notices_append, Sink.notices_signals, List.append_nil, written,
      hw, Bank.notices_set, hbank]
    rfl

theorem notices_update (key : RegisterKey) (value : UInt64) :
    Signal.notices (f.update key value).signals =
      f.bank.tell ((block.find? key).toList.flatMap written) := by
  unfold update
  cases block.find? key with
  | none => rfl
  | some i =>
    rw [Option.toList_some, List.flatMap_singleton]
    exact f.notices_write i value

/-- The register is read in any case and then written, if it can be. -/
theorem notices_modify (number : Int) (change : UInt64 → UInt64) :
    Signal.notices (f.modify number change).signals =
      f.bank.tell ((block.byNumber? number).toList.flatMap fun i => (i, .read) :: written i) := by
  unfold modify
  cases block.byNumber? number with
  | none => rfl
  | some i =>
    rw [Option.toList_some, List.flatMap_singleton, ← List.singleton_append, Bank.tell_append,
      ← Bank.notices_notify, ← notices_write f i (change (f.bank.get i).answer)]
    exact Signal.notices_append ..

theorem notices_serve (r : ControlRequest) :
    Signal.notices (f.serve r).signals = f.bank.tell r.accesses := by
  cases r with
  | update key value => exact f.notices_update key value
  | setBits number mask => exact f.notices_modify number _
  | clearBits number mask => exact f.notices_modify number _
  | cell j request => exact f.bank.notices_serve j request
  | backdoor _ _ | reset | observe _ | unobserve _ | attach _ => rfl

def system : RegisterSystem spec ControlFile ControlCall where
  bank := bank
  serve := answer
  roster := ControlCall.roster
  accesses := ControlCall.accesses
  observers_serve f call i := by
    cases call with
    | request r => exact f.observers_serve r i
    | value key | signedLow key => rfl
    | peek number => rfl
    | bank call => exact (Bank.system spec).observers_serve f.bank call i
  notices_serve f call := by
    cases call with
    | request r => exact f.notices_serve r
    | value key | signedLow key => exact block.notices_value f.bank key
    | peek number => rfl
    | bank call => exact (Bank.system spec).notices_serve f.bank call

theorem observedTogether : system.ObservedTogether block.members
    (fun id => .request (.observe id)) (fun id => .request (.unobserve id)) :=
  system.observedTogether (by decide) (fun _ => rfl) fun _ => rfl

theorem observedTogether_cell (j : spec.Position) : system.ObservedTogether [j]
    (fun id => .request (.cell j (.observe id))) (fun id => .request (.cell j (.unobserve id))) :=
  system.observedTogether (List.nodup_singleton j) (fun _ => rfl) fun _ => rfl

end ControlFile

/-- Whatever was called before, a register that is read, and one that is written and is not
read-only, tells those of this access who live on it, and a write to a read-only one nobody. The
notices of all other calls are those of their accesses, for banks as for the three files. Who joins
or leaves through a block with distinct numbers, a file or a single register does so on its
registers and nowhere else. -/
theorem registers_tell_exactly :
    (∀ (spec : BankSpec) (resets : Vector UInt64 spec.size) (calls : List (BankCall spec))
      (i : spec.Position) (value : UInt64),
      let b := (Bank.system spec).run (Bank.initial resets) calls
      let living := (Bank.system spec).living calls i
      (b.get i).signals = spec.told (i, .read) living ∧
      (b.set i value).signals =
        if spec.isReadOnly i then [] else spec.told (i, .write) living) ∧
    ((∀ (spec : BankSpec) (resets : Vector UInt64 spec.size),
        (Bank.system spec).TellsExactly (Bank.initial resets)) ∧
      (∀ l, IntegerFile.system.TellsExactly (IntegerFile.ofLayout l)) ∧
      FloatFile.system.TellsExactly FloatFile.initial ∧
      ControlFile.system.TellsExactly ControlFile.initial) ∧
    ((∀ (spec : BankSpec) (block : RegisterBlock spec),
        (block.members.map fun i => (spec.cell i).number).Nodup →
        (Bank.system spec).ObservedTogether block.members (.observe block) (.unobserve block)) ∧
      IntegerFile.system.ObservedTogether (Integer.block.members ++ [Integer.programCounter])
        (fun id => .request (.observe id)) (fun id => .request (.unobserve id)) ∧
      FloatFile.system.ObservedTogether Floating.block.members
        (fun id => .request (.observe id)) (fun id => .request (.unobserve id)) ∧
      ControlFile.system.ObservedTogether Control.block.members
        (fun id => .request (.observe id)) (fun id => .request (.unobserve id))) ∧
    (∀ (spec : BankSpec) (j : spec.Position), (Bank.system spec).ObservedTogether [j]
      (fun id => .cell j (.observe id)) (fun id => .cell j (.unobserve id))) ∧
    (∀ j, IntegerFile.system.ObservedTogether [j]
      (fun id => .request (.cell j (.observe id))) (fun id => .request (.cell j (.unobserve id)))) ∧
    (∀ j, FloatFile.system.ObservedTogether [j]
      (fun id => .request (.cell j (.observe id))) (fun id => .request (.cell j (.unobserve id)))) ∧
    ∀ j, ControlFile.system.ObservedTogether [j] (fun id => .request (.cell j (.observe id)))
      (fun id => .request (.cell j (.unobserve id))) := by
  exact ⟨fun spec resets calls i value =>
      ⟨Bank.signals_get_run resets calls i, Bank.signals_set_run resets calls i value⟩,
    ⟨fun spec resets => (Bank.system spec).tellsExactly (Bank.observers_initial resets),
      fun l => IntegerFile.system.tellsExactly (Bank.observers_initial (IntegerFile.resets l)),
      FloatFile.system.tellsExactly (Bank.observers_initial _),
      ControlFile.system.tellsExactly (Bank.observers_initial _)⟩,
    ⟨fun spec block h => Bank.observedTogether_block h, IntegerFile.observedTogether,
      FloatFile.observedTogether, ControlFile.observedTogether⟩,
    fun spec j => Bank.observedTogether_cell j, IntegerFile.observedTogether_cell,
    FloatFile.observedTogether_cell, ControlFile.observedTogether_cell⟩

/-- A write to the rounding mode is told to the observer of the block and not to the one that
watches only `fcsr`, which the mode is a field of. When the former leaves the block, the latter
stays. -/
theorem rounding_mode_told_alone :
    let calls : List (BankCall Control.spec) :=
      [.observe Control.block ⟨1⟩, .cell (Control.register 1) (.observe ⟨2⟩)]
    let system := Bank.system Control.spec
    let b := system.run (Bank.initial (Vector.replicate _ 0)) calls
    (Control.block.members.map fun i => (Control.spec.cell i).number).Nodup ∧
    (b.set (Control.register 3) 5).signals = [.register ⟨1⟩ ⟨.write, "frm", 0x002⟩] ∧
    (Control.block.unobserve b ⟨1⟩).observers.get (Control.register 1) = [⟨2⟩] := by
  intro calls system b
  have hnumbers : (Control.block.members.map fun i => (Control.spec.cell i).number).Nodup := by
    decide
  obtain ⟨hcells, -, ⟨hblock, -⟩, -⟩ := registers_tell_exactly
  refine ⟨hnumbers, ?_, ?_⟩
  · exact (hcells Control.spec _ calls (Control.register 3) 5).2.trans rfl
  · have hfcsr : Control.register 1 ∈ Control.block.members := by decide
    exact ((hblock Control.spec Control.block hnumbers).left b ⟨1⟩ _ hfcsr).trans rfl

end ArchState
