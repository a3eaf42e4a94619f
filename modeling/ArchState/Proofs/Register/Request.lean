import ArchState.Proofs.Register.Reset
import ArchState.Proofs.Register.Undo

/-! # Requests to register files

All that programs and debuggers may ask of a cell or of a register file so that it changes. The
reset values of a file change in two ways only: one by one, through the handles of cells, and
together when the file is moved to another layout.
-/
namespace ArchState

inductive CellRequest where
  | set (value : UInt64)
  | backdoor (value : UInt64)
  | reset
  | changeReset (value : UInt64)
  | observe (id : ObserverId)
  | unobserve (id : ObserverId)
  | unobserveAll
  deriving DecidableEq, Repr

def CellRequest.editsReset : CellRequest → Bool
  | changeReset _ => true
  | _ => false

namespace Bank
variable {spec : BankSpec}

def serve (b : Bank spec) (i : spec.Position) : CellRequest → Step (Bank spec) Unit
  | .set value => (b.set i value).map fun _ => ()
  | .backdoor value => .quiet () (b.backdoor i value).2
  | .reset => .quiet () (b.reset i)
  | .changeReset value => .quiet () (b.setResetValue i value)
  | .observe id => .quiet () (b.observe i id)
  | .unobserve id => .quiet () (b.unobserve i id).2
  | .unobserveAll => .quiet () (b.unobserveAll i)

theorem resets_set (b : Bank spec) (i : spec.Position) (value : UInt64) :
    (b.set i value).state.resets = b.resets := by
  unfold set
  split <;> rfl

theorem resets_observe (b : Bank spec) (i : spec.Position) (id : ObserverId) :
    (b.observe i id).resets = b.resets := rfl

theorem resets_unobserve (b : Bank spec) (i : spec.Position) (id : ObserverId) :
    (b.unobserve i id).2.resets = b.resets := rfl

theorem resets_serve (b : Bank spec) (i : spec.Position) {request : CellRequest}
    (h : request.editsReset = false) : (b.serve i request).state.resets = b.resets := by
  cases request with
  | set value => exact b.resets_set i value
  | reset => exact b.resets_foldl_reset [i]
  | changeReset value => exact nomatch h
  | backdoor value => rfl
  | observe id => rfl
  | unobserve id => rfl
  | unobserveAll => rfl

/-- What no step over a cell changes, no pass over the cells changes. -/
theorem foldl_keeps {α : Type} {f : Bank spec → spec.Position → Bank spec} (g : Bank spec → α)
    (h : ∀ b i, g (f b i) = g b) (b : Bank spec) (is : List spec.Position) :
    g (is.foldl f b) = g b := by
  induction is generalizing b with
  | nil => rfl
  | cons i is ih => rw [List.foldl_cons, ih, h]

end Bank

namespace RegisterBlock
variable {spec : BankSpec} (block : RegisterBlock spec)

theorem resets_observe (b : Bank spec) (id : ObserverId) :
    (block.observe b id).resets = b.resets :=
  Bank.foldl_keeps (f := fun b i => b.observe i id) Bank.resets (fun b i => b.resets_observe i id)
    b block.members

theorem resets_unobserve (b : Bank spec) (id : ObserverId) :
    (block.unobserve b id).resets = b.resets :=
  Bank.foldl_keeps (f := fun b i => (b.unobserve i id).2) Bank.resets
    (fun b i => b.resets_unobserve i id) b block.members

end RegisterBlock

inductive IntegerRequest where
  | update (key : RegisterKey) (value : UInt64)
  | setPc (a : UInt32)
  | placePc (a : UInt32)
  | incrementPc
  | enter (startAtMain : Bool) (symbols : Symbols) (inText : UInt32 → Bool)
  | applyLayout (l : Layout)
  | reset
  | observe (id : ObserverId)
  | unobserve (id : ObserverId)
  | attach (sink : Option Sink)
  | cell (i : Integer.spec.Position) (request : CellRequest)

namespace IntegerRequest

def editsReset : IntegerRequest → Bool
  | cell _ request => request.editsReset
  | _ => false

/-- The layout that a request moves the reset values to. -/
def layout? : IntegerRequest → Option Layout
  | applyLayout l => some l
  | _ => none

end IntegerRequest

namespace IntegerFile
open Integer

def serve (f : IntegerFile) : IntegerRequest → Step IntegerFile Unit
  | .update key value => (f.update key value).map fun _ => ()
  | .setPc a => (f.setPc a).map fun _ => ()
  | .placePc a => f.placePc a
  | .incrementPc => f.incrementPc
  | .enter startAtMain symbols inText => (f.enter startAtMain symbols inText).map fun _ => ()
  | .applyLayout l => .quiet () (f.applyLayout l)
  | .reset => .quiet () f.reset
  | .observe id => .quiet () (f.observe id)
  | .unobserve id => .quiet () (f.unobserve id)
  | .attach sink => .quiet () { f with sink }
  | .cell i request => (f.bank.serve i request).within fun bank => { f with bank }

theorem resets_write (f : IntegerFile) (i : spec.Position) (value : UInt64) :
    (f.write i value).state.bank.resets = f.bank.resets := by
  unfold write
  split
  · rfl
  · exact f.bank.resets_set i value

theorem resets_update (f : IntegerFile) (key : RegisterKey) (value : UInt64) :
    (f.update key value).state.bank.resets = f.bank.resets := by
  unfold update
  split
  · rfl
  · exact f.resets_write _ value

theorem resets_restore (f : IntegerFile) (number : Int) (value : UInt64) :
    (f.restore number value).state.bank.resets = f.bank.resets := by
  unfold restore
  split
  · rfl
  · exact f.resets_write _ value

theorem resets_restorePc (f : IntegerFile) (value : UInt64) :
    (f.restorePc value).state.bank.resets = f.bank.resets := f.bank.resets_set programCounter value

theorem resets_reset (f : IntegerFile) : f.reset.bank.resets = f.bank.resets := by
  rw [bank_reset, Bank.resets_foldl_reset]

theorem resets_observe (f : IntegerFile) (id : ObserverId) :
    (f.observe id).bank.resets = f.bank.resets := by
  rw [observe, Bank.resets_observe, RegisterBlock.resets_observe]

theorem resets_unobserve (f : IntegerFile) (id : ObserverId) :
    (f.unobserve id).bank.resets = f.bank.resets := by
  rw [unobserve, Bank.resets_unobserve, RegisterBlock.resets_unobserve]

theorem resets_applyLayout {f : IntegerFile} {l : Layout} (h : f.bank.resets = resets l)
    (target : Layout) : (f.applyLayout target).bank.resets = resets target := by
  change (((f.bank.resets.set stackPointer _).set globalPointer _).set programCounter _) = _
  rw [h, resets, resets]
  -- each of the three reset values is stored over the one of the layout before
  apply Vector.ext
  intro i hi
  simp only [Vector.getElem_set]
  split
  · rfl
  · split
    · rfl
    · split <;> rfl

theorem resets_serve {f : IntegerFile} {l : Layout} {request : IntegerRequest}
    (hr : request.editsReset = false) (h : f.bank.resets = resets l) :
    (f.serve request).state.bank.resets = resets (request.layout?.getD l) := by
  cases request with
  | applyLayout target => exact resets_applyLayout h target
  | update key value => exact (f.resets_update key value).trans h
  | setPc a => exact (f.resets_restorePc _).trans h
  | placePc a => exact (f.resets_restorePc _).trans h
  | incrementPc => exact (f.resets_restorePc _).trans h
  | enter startAtMain symbols inText => exact (f.resets_restorePc _).trans h
  | reset => exact f.resets_reset.trans h
  | observe id => exact (f.resets_observe id).trans h
  | unobserve id => exact (f.resets_unobserve id).trans h
  | attach sink => exact h
  | cell i request => exact (f.bank.resets_serve i hr).trans h

end IntegerFile

inductive FloatRequest where
  | update (number : Int) (value : UInt64)
  | updateSingle (key : RegisterKey) (bits : UInt32)
  | reset
  | observe (id : ObserverId)
  | unobserve (id : ObserverId)
  | attach (sink : Option Sink)
  | cell (i : Floating.spec.Position) (request : CellRequest)

def FloatRequest.editsReset : FloatRequest → Bool
  | cell _ request => request.editsReset
  | _ => false

namespace FloatFile
open Floating

def serve (f : FloatFile) : FloatRequest → Step FloatFile Unit
  | .update number value => (f.update number value).map fun _ => ()
  | .updateSingle key bits => (f.updateSingle key bits).map fun _ => ()
  | .reset => .quiet () f.reset
  | .observe id => .quiet () (f.observe id)
  | .unobserve id => .quiet () (f.unobserve id)
  | .attach sink => .quiet () { f with sink }
  | .cell i request => (f.bank.serve i request).within fun bank => { f with bank }

theorem resets_write (f : FloatFile) (found : Option spec.Position) (value : UInt64) :
    (f.write found value).state.bank.resets = f.bank.resets := by
  cases found with
  | none => rfl
  | some i => exact f.bank.resets_set i value

theorem resets_restore (f : FloatFile) (number : Int) (value : UInt64) :
    (f.restore number value).state.bank.resets = f.bank.resets := by
  change (block.update f.bank (.number number) value).state.resets = f.bank.resets
  unfold RegisterBlock.update
  split
  · exact f.bank.resets_set _ value
  · rfl

theorem resets_reset (f : FloatFile) : f.reset.bank.resets = f.bank.resets :=
  f.bank.resets_foldl_reset block.members

theorem resets_serve (f : FloatFile) {request : FloatRequest}
    (hr : request.editsReset = false) : (f.serve request).state.bank.resets = f.bank.resets := by
  cases request with
  | update number value => exact f.resets_write _ value
  | updateSingle key bits => exact f.resets_write _ _
  | reset => exact f.resets_reset
  | observe id => exact block.resets_observe f.bank id
  | unobserve id => exact block.resets_unobserve f.bank id
  | attach sink => rfl
  | cell i request => exact f.bank.resets_serve i hr

end FloatFile

inductive ControlRequest where
  | update (key : RegisterKey) (value : UInt64)
  | setBits (number : Int) (mask : UInt64)
  | clearBits (number : Int) (mask : UInt64)
  | backdoor (key : RegisterKey) (value : UInt64)
  | reset
  | observe (id : ObserverId)
  | unobserve (id : ObserverId)
  | attach (sink : Option Sink)
  | cell (i : Control.spec.Position) (request : CellRequest)

def ControlRequest.editsReset : ControlRequest → Bool
  | cell _ request => request.editsReset
  | _ => false

namespace ControlFile
open Control

def serve (f : ControlFile) : ControlRequest → Step ControlFile Unit
  | .update key value => (f.update key value).map fun _ => ()
  | .setBits number mask => (f.setBits number mask).map fun _ => ()
  | .clearBits number mask => (f.clearBits number mask).map fun _ => ()
  | .backdoor key value => .quiet () (f.backdoor key value).2
  | .reset => .quiet () f.reset
  | .observe id => .quiet () (f.observe id)
  | .unobserve id => .quiet () (f.unobserve id)
  | .attach sink => .quiet () { f with sink }
  | .cell i request => (f.bank.serve i request).within fun bank => { f with bank }

theorem resets_write (f : ControlFile) (i : spec.Position) (value : UInt64) :
    (f.write i value).state.bank.resets = f.bank.resets := by
  cases hw : isReadOnly (spec.cell i).number with
  | true => rw [write_of_readOnly hw, Step.quiet]
  | false =>
    rw [write_of_writable hw]
    exact f.bank.resets_set i value

theorem resets_update (f : ControlFile) (key : RegisterKey) (value : UInt64) :
    (f.update key value).state.bank.resets = f.bank.resets := by
  unfold update
  split
  · rfl
  · exact f.resets_write _ value

theorem resets_modify (f : ControlFile) (number : Int) (change : UInt64 → UInt64) :
    (f.modify number change).state.bank.resets = f.bank.resets := by
  unfold modify
  split
  · rfl
  · exact f.resets_write _ _

theorem resets_backdoor (f : ControlFile) (key : RegisterKey) (value : UInt64) :
    (f.backdoor key value).2.bank.resets = f.bank.resets := by
  unfold backdoor
  split <;> rfl

theorem resets_reset (f : ControlFile) : f.reset.bank.resets = f.bank.resets :=
  f.bank.resets_foldl_reset block.members

theorem resets_serve (f : ControlFile) {request : ControlRequest}
    (hr : request.editsReset = false) : (f.serve request).state.bank.resets = f.bank.resets := by
  cases request with
  | update key value => exact f.resets_update key value
  | setBits number mask => exact f.resets_modify number _
  | clearBits number mask => exact f.resets_modify number _
  | backdoor key value => exact f.resets_backdoor key value
  | reset => exact f.resets_reset
  | observe id => exact block.resets_observe f.bank id
  | unobserve id => exact block.resets_unobserve f.bank id
  | attach sink => rfl
  | cell i request => exact f.bank.resets_serve i hr

end ControlFile
end ArchState
