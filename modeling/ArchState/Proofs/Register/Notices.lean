import ArchState.Proofs.Memory.DoubleWord
import ArchState.Proofs.Register.Request
import ArchState.Proofs.Roster
import Mathlib.Data.List.Nodup

/-! # Notices of registers

Each cell has observers of its own, who join and leave it alone or together with other cells. A call
makes some accesses to cells, and for each of them the observers that live on this cell are told, in
the order in which they joined, and nobody else. A write through a view is an access to the view and
not to its base.
-/
namespace ArchState

theorem Signal.notices_append (xs ys : List Signal) :
    notices (xs ++ ys) = notices xs ++ notices ys := List.filter_append ..

theorem Sink.notices_signals (sink : Option Sink) (record : UndoRecord) :
    Signal.notices (signals sink record) = [] := by
  cases sink <;> rfl

namespace BankSpec
variable {spec : BankSpec}

/-- The notices of an access to a cell, for each of some observers in turn. -/
def told (spec : BankSpec) (a : spec.Position × Access) (observers : List ObserverId) :
    List Signal :=
  observers.map fun id => .register id ⟨a.2, (spec.cell a.1).name, (spec.cell a.1).number⟩

theorem notices_told (a : spec.Position × Access) (observers : List ObserverId) :
    Signal.notices (spec.told a observers) = spec.told a observers :=
  List.filter_eq_self.mpr fun x hx => by
    obtain ⟨id, -, rfl⟩ := List.mem_map.mp hx
    rfl

/-- What happens at the cell at `i` when something happens at each of some cells. -/
def among (cells : List spec.Position) (e : RosterEvent) (i : spec.Position) : List RosterEvent :=
  List.replicate (cells.count i) e

theorem among_append (cells more : List spec.Position) (e : RosterEvent) (i : spec.Position) :
    among (cells ++ more) e i = among cells e i ++ among more e i := by
  rw [among, List.count_append, ← List.replicate_append_replicate]
  rfl

theorem among_singleton (j : spec.Position) (e : RosterEvent) (i : spec.Position) :
    among [j] e i = if j = i then [e] else [] := by
  by_cases h : j = i
  · rw [if_pos h, h, among, List.count_singleton_self]
    rfl
  · rw [if_neg h, among, List.count_singleton, beq_eq_false_iff_ne.mpr h]
    rfl

/-- The access that a write to a cell makes: none if the cell is read-only. -/
def written (i : spec.Position) : List (spec.Position × Access) :=
  if spec.isReadOnly i then [] else [(i, .write)]

end BankSpec

namespace Bank
variable {spec : BankSpec} (b : Bank spec)

/-- The notices of some accesses to cells, to the observers of these cells. -/
def tell (b : Bank spec) (accesses : List (spec.Position × Access)) : List Signal :=
  accesses.flatMap fun a => spec.told a (b.observers.get a.1)

theorem tell_append (xs ys : List (spec.Position × Access)) :
    b.tell (xs ++ ys) = b.tell xs ++ b.tell ys := List.flatMap_append ..

theorem tell_singleton (i : spec.Position) (access : Access) :
    b.tell [(i, access)] = b.notify i access := List.flatMap_singleton ..

theorem notices_notify (i : spec.Position) (access : Access) :
    Signal.notices (b.notify i access) = b.tell [(i, access)] := by
  rw [tell_singleton]
  exact BankSpec.notices_told (i, access) (b.observers.get i)

end Bank

/-- A system whose registers are the cells of a bank. Each call is served by one step, means
something for the observers of each cell and makes accesses to cells of which the observers are
told. -/
structure RegisterSystem (spec : BankSpec) (σ κ : Type) where
  bank : σ → Bank spec
  serve : σ → κ → Step σ Unit
  roster : κ → spec.Position → List RosterEvent
  accesses : κ → List (spec.Position × Access)
  observers_serve : ∀ s c i, (bank (serve s c).state).observers.get i =
    (roster c i).foldl RosterEvent.apply ((bank s).observers.get i)
  notices_serve : ∀ s c, Signal.notices (serve s c).signals = (bank s).tell (accesses c)

namespace RegisterSystem
variable {spec : BankSpec} {σ κ : Type} (S : RegisterSystem spec σ κ)

def run (s : σ) (calls : List κ) : σ := calls.foldl (fun s c => (S.serve s c).state) s

/-- The observers that live on a cell after some calls, in the order in which they joined. -/
def living (calls : List κ) (i : spec.Position) : List ObserverId :=
  RosterEvent.living (calls.flatMap fun c => S.roster c i)

/-- Whether after all calls from `start` on the observers of each cell are those that live on it,
and the notices of the next call are those of its accesses, to the observers that live on the cells
accessed. -/
structure TellsExactly (start : σ) : Prop where
  observers : ∀ calls i, (S.bank (S.run start calls)).observers.get i = S.living calls i
  notices : ∀ calls call, Signal.notices (S.serve (S.run start calls) call).signals =
    (S.accesses call).flatMap fun a => spec.told a (S.living calls a.1)

theorem observers_run (s : σ) (calls : List κ) (i : spec.Position) :
    (S.bank (S.run s calls)).observers.get i =
      (calls.flatMap fun c => S.roster c i).foldl RosterEvent.apply
        ((S.bank s).observers.get i) := by
  induction calls generalizing s with
  | nil => rfl
  | cons c calls ih =>
    rw [List.flatMap_cons, List.foldl_append, ← S.observers_serve]
    exact ih (S.serve s c).state

theorem tellsExactly {start : σ} (h : ∀ i, (S.bank start).observers.get i = []) :
    S.TellsExactly start := by
  have hliving : ∀ calls i, (S.bank (S.run start calls)).observers.get i = S.living calls i := by
    intro calls i
    rw [observers_run, h]
    exact (RosterEvent.living_eq_foldl _).symm
  refine ⟨hliving, fun calls call => ?_⟩
  rw [S.notices_serve]
  simp only [Bank.tell, hliving]

/-- Whether some calls register and delete an observer on all of some cells and on no other cell. -/
structure ObservedTogether (cells : List spec.Position) (observe unobserve : ObserverId → κ) :
    Prop where
  joined : ∀ s id, ∀ i ∈ cells,
    (S.bank (S.serve s (observe id)).state).observers.get i = (S.bank s).observers.get i ++ [id]
  left : ∀ s id, ∀ i ∈ cells, (S.bank (S.serve s (unobserve id)).state).observers.get i =
    ((S.bank s).observers.get i).filter (· != id)
  kept : ∀ s id, ∀ i ∉ cells,
    (S.bank (S.serve s (observe id)).state).observers.get i = (S.bank s).observers.get i ∧
    (S.bank (S.serve s (unobserve id)).state).observers.get i = (S.bank s).observers.get i

theorem foldl_among_of_mem {cells : List spec.Position} (h : cells.Nodup) {i : spec.Position}
    (hi : i ∈ cells) (e : RosterEvent) (ids : List ObserverId) :
    (BankSpec.among cells e i).foldl RosterEvent.apply ids = e.apply ids := by
  rw [BankSpec.among, List.count_eq_one_of_mem h hi]
  rfl

theorem foldl_among_of_not_mem {cells : List spec.Position} {i : spec.Position} (hi : i ∉ cells)
    (e : RosterEvent) (ids : List ObserverId) :
    (BankSpec.among cells e i).foldl RosterEvent.apply ids = ids := by
  rw [BankSpec.among, List.count_eq_zero.mpr hi]
  rfl

theorem observedTogether {cells : List spec.Position} (h : cells.Nodup)
    {observe unobserve : ObserverId → κ}
    (hjoin : ∀ id, S.roster (observe id) = BankSpec.among cells (.joined id))
    (hleave : ∀ id, S.roster (unobserve id) = BankSpec.among cells (.left id)) :
    S.ObservedTogether cells observe unobserve where
  joined s id i hi := by
    rw [S.observers_serve, hjoin]
    exact foldl_among_of_mem h hi ..
  left s id i hi := by
    rw [S.observers_serve, hleave]
    exact foldl_among_of_mem h hi ..
  kept s id i hi := by
    rw [S.observers_serve, S.observers_serve, hjoin, hleave]
    exact ⟨foldl_among_of_not_mem hi .., foldl_among_of_not_mem hi ..⟩

end RegisterSystem

/-- The calls to the cells of a bank, one by one and through blocks. -/
inductive BankCall (spec : BankSpec) where
  | get (i : spec.Position)
  | peek (i : spec.Position)
  | cell (i : spec.Position) (request : CellRequest)
  | value (block : RegisterBlock spec) (key : RegisterKey)
  | update (block : RegisterBlock spec) (key : RegisterKey) (value : UInt64)
  | reset (block : RegisterBlock spec)
  | observe (block : RegisterBlock spec) (id : ObserverId)
  | unobserve (block : RegisterBlock spec) (id : ObserverId)

variable {spec : BankSpec}

def CellRequest.roster (j : spec.Position) : CellRequest → spec.Position → List RosterEvent
  | observe id => BankSpec.among [j] (.joined id)
  | unobserve id => BankSpec.among [j] (.left id)
  | unobserveAll => BankSpec.among [j] .allLeft
  | _ => fun _ => []

def CellRequest.accesses (i : spec.Position) : CellRequest → List (spec.Position × Access)
  | set _ => BankSpec.written i
  | _ => []

namespace BankCall

def roster : BankCall spec → spec.Position → List RosterEvent
  | cell i request => request.roster i
  | observe block id => BankSpec.among block.members (.joined id)
  | unobserve block id => BankSpec.among block.members (.left id)
  | _ => fun _ => []

def accesses : BankCall spec → List (spec.Position × Access)
  | get i => [(i, .read)]
  | cell i request => request.accesses i
  | value block key => (block.find? key).toList.map fun i => (i, .read)
  | update block key _ => (block.find? key).toList.flatMap BankSpec.written
  | _ => []

end BankCall

/-- What is read leaves the state as it is. -/
def Reading.step {α σ : Type} (r : Reading α) (s : σ) : Step σ Unit := ⟨(), s, r.signals⟩

namespace Bank
variable (b : Bank spec)

def answer (b : Bank spec) : BankCall spec → Step (Bank spec) Unit
  | .get i => (b.get i).step b
  | .peek i => (Step.quiet (b.read i) b).map fun _ => ()
  | .cell i request => b.serve i request
  | .value block key => (block.value b key).step b
  | .update block key value => (block.update b key value).map fun _ => ()
  | .reset block => .quiet () (block.reset b)
  | .observe block id => .quiet () (block.observe b id)
  | .unobserve block id => .quiet () (block.unobserve b id)

theorem observers_set (i : spec.Position) (value : UInt64) :
    (b.set i value).state.observers = b.observers := by
  unfold set
  split <;> rfl

theorem observers_reset (i : spec.Position) : (b.reset i).observers = b.observers := by
  unfold reset
  split <;> rfl

theorem notices_set (i : spec.Position) (value : UInt64) :
    Signal.notices (b.set i value).signals = b.tell (BankSpec.written i) := by
  cases h : spec.isReadOnly i with
  | true =>
    rw [set, h, BankSpec.written, h]
    rfl
  | false =>
    rw [set_of_writable h, BankSpec.written, h]
    exact b.notices_notify i .write

/-- What happens at each of some cells in turn happens at a cell as often as it is among them. -/
theorem observers_foldl {f : Bank spec → spec.Position → Bank spec} {e : RosterEvent}
    (h : ∀ b j i, (f b j).observers.get i =
      (BankSpec.among [j] e i).foldl RosterEvent.apply (b.observers.get i))
    (b : Bank spec) (cells : List spec.Position) (i : spec.Position) :
    (cells.foldl f b).observers.get i =
      (BankSpec.among cells e i).foldl RosterEvent.apply (b.observers.get i) := by
  induction cells generalizing b with
  | nil => rfl
  | cons j cells ih =>
    rw [List.foldl_cons, ih, h, ← List.foldl_append, ← BankSpec.among_append, List.singleton_append]

theorem get_observers_set (j i : spec.Position) (ids : List ObserverId) :
    (b.observers.set j ids j.isLt).get i = if j = i then ids else b.observers.get i := by
  by_cases h : j = i
  · subst h
    rw [if_pos rfl]
    exact Vector.getElem_set_self ..
  · rw [if_neg h]
    exact Vector.getElem_set_ne j.isLt i.isLt fun hji => h (Fin.ext hji)

/-- The observers of each cell after something has happened at one of them. -/
theorem observers_apply (e : RosterEvent) (j i : spec.Position) :
    (b.observers.set j (e.apply (b.observers.get j)) j.isLt).get i =
      (BankSpec.among [j] e i).foldl RosterEvent.apply (b.observers.get i) := by
  rw [BankSpec.among_singleton, get_observers_set]
  split
  · rename_i h
    subst h
    rfl
  · rfl

theorem observers_observe (id : ObserverId) (j i : spec.Position) :
    (b.observe j id).observers.get i =
      (BankSpec.among [j] (.joined id) i).foldl RosterEvent.apply (b.observers.get i) :=
  b.observers_apply (.joined id) j i

theorem observers_unobserve (id : ObserverId) (j i : spec.Position) :
    (b.unobserve j id).2.observers.get i =
      (BankSpec.among [j] (.left id) i).foldl RosterEvent.apply (b.observers.get i) :=
  b.observers_apply (.left id) j i

theorem observers_serve (j : spec.Position) (request : CellRequest) (i : spec.Position) :
    (b.serve j request).state.observers.get i =
      (request.roster j i).foldl RosterEvent.apply (b.observers.get i) := by
  cases request with
  | set value => exact congrArg (·.get i) (b.observers_set j value)
  | backdoor value => rfl
  | reset => exact congrArg (·.get i) (b.observers_reset j)
  | changeReset value => rfl
  | observe id => exact b.observers_observe id j i
  | unobserve id => exact b.observers_unobserve id j i
  | unobserveAll => exact b.observers_apply .allLeft j i

theorem notices_serve (j : spec.Position) (request : CellRequest) :
    Signal.notices (b.serve j request).signals = b.tell (request.accesses j) := by
  cases request with
  | set value => exact b.notices_set j value
  | _ => rfl

end Bank

namespace RegisterBlock
variable (block : RegisterBlock spec) (b : Bank spec)

theorem observers_reset : (block.reset b).observers = b.observers :=
  Bank.foldl_keeps Bank.observers (fun b i => b.observers_reset i) b block.members

theorem observers_observe (id : ObserverId) (i : spec.Position) :
    (block.observe b id).observers.get i =
      (BankSpec.among block.members (.joined id) i).foldl RosterEvent.apply (b.observers.get i) :=
  Bank.observers_foldl (fun b j i => b.observers_observe id j i) b block.members i

theorem observers_unobserve (id : ObserverId) (i : spec.Position) :
    (block.unobserve b id).observers.get i =
      (BankSpec.among block.members (.left id) i).foldl RosterEvent.apply (b.observers.get i) :=
  Bank.observers_foldl (fun b j i => b.observers_unobserve id j i) b block.members i

theorem observers_update (key : RegisterKey) (value : UInt64) :
    (block.update b key value).state.observers = b.observers := by
  unfold update
  split
  · exact b.observers_set _ value
  · rfl

theorem notices_value (key : RegisterKey) : Signal.notices (block.value b key).signals =
    b.tell ((block.find? key).toList.map fun i => (i, .read)) := by
  unfold value
  cases block.find? key with
  | none => rfl
  | some i => exact b.notices_notify i .read

theorem notices_update (key : RegisterKey) (value : UInt64) :
    Signal.notices (block.update b key value).signals =
      b.tell ((block.find? key).toList.flatMap BankSpec.written) := by
  unfold update
  cases block.find? key with
  | none => rfl
  | some i =>
    rw [Option.toList_some, List.flatMap_singleton]
    exact b.notices_set i value

end RegisterBlock

namespace Bank

def system (spec : BankSpec) : RegisterSystem spec (Bank spec) (BankCall spec) where
  bank b := b
  serve := answer
  roster := BankCall.roster
  accesses := BankCall.accesses
  observers_serve b call i := by
    cases call with
    | get j => rfl
    | peek j => rfl
    | cell j request => exact b.observers_serve j request i
    | value block key => rfl
    | update block key value => exact congrArg (·.get i) (block.observers_update b key value)
    | reset block => exact congrArg (·.get i) (block.observers_reset b)
    | observe block id => exact block.observers_observe b id i
    | unobserve block id => exact block.observers_unobserve b id i
  notices_serve b call := by
    cases call with
    | get j => exact b.notices_notify j .read
    | cell j request => exact b.notices_serve j request
    | value block key => exact block.notices_value b key
    | update block key value => exact block.notices_update b key value
    | peek _ | reset _ | observe _ _ | unobserve _ _ => rfl

theorem observers_initial (resets : Vector UInt64 spec.size) (i : spec.Position) :
    (initial resets).observers.get i = [] := Vector.getElem_replicate ..

/-- A block whose registers have distinct numbers lists each of them once. -/
theorem observedTogether_block {block : RegisterBlock spec}
    (h : (block.members.map fun i => (spec.cell i).number).Nodup) :
    (system spec).ObservedTogether block.members (.observe block) (.unobserve block) :=
  (system spec).observedTogether (List.Nodup.of_map _ h) (fun _ => rfl) fun _ => rfl

theorem observedTogether_cell (j : spec.Position) : (system spec).ObservedTogether [j]
    (fun id => .cell j (.observe id)) (fun id => .cell j (.unobserve id)) :=
  (system spec).observedTogether (List.nodup_singleton j) (fun _ => rfl) fun _ => rfl

section
variable (resets : Vector UInt64 spec.size) (calls : List (BankCall spec)) (i : spec.Position)

theorem signals_get_run : (((system spec).run (initial resets) calls).get i).signals =
    spec.told (i, .read) ((system spec).living calls i) :=
  congrArg (spec.told (i, .read))
    (((system spec).tellsExactly (observers_initial resets)).observers calls i)

theorem signals_set_run (value : UInt64) :
    (((system spec).run (initial resets) calls).set i value).signals =
      if spec.isReadOnly i then [] else spec.told (i, .write) ((system spec).living calls i) := by
  rw [set]
  split
  · rfl
  · exact congrArg (spec.told (i, .write))
      (((system spec).tellsExactly (observers_initial resets)).observers calls i)

end

end Bank
end ArchState
