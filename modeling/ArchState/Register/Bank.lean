import ArchState.Register.Spec
import ArchState.Signal

/-! # Banks of register cells

A bank keeps a stored value, a reset value and a list of observers for every cell. What a
view reads is a field of what its base reads. A write through a view changes the storage of
its immediate base, whatever the kind of that base.
-/
namespace ArchState

structure Bank (spec : BankSpec) where
  values : Vector UInt64 spec.size
  resets : Vector UInt64 spec.size
  observers : Vector (List ObserverId) spec.size

namespace BankSpec
variable (spec : BankSpec)

/-- What the cell at `i` shows when the cells store `store`. -/
def look (store : Vector UInt64 spec.size) (i : spec.Position) : UInt64 :=
  match h : (spec.cell i).kind with
  | .view base mask => field mask (look store (spec.basePosition i base (spec.base_lt h)))
  | _ => store.get i
termination_by i.val
decreasing_by exact spec.base_lt h

/-- The position whose storage a write to the cell at `i` changes. -/
def owner (i : spec.Position) : spec.Position :=
  match h : (spec.cell i).kind with
  | .view base _ => spec.basePosition i base (spec.base_lt h)
  | _ => i

/-- The storage that results from writing `value` to the cell at `i` over `old`. A guarded
write keeps the masked bits of a masked cell. -/
def stored (i : spec.Position) (guarded : Bool) (old value : UInt64) : UInt64 :=
  match (spec.cell i).kind with
  | .view _ mask => setField mask old value
  | .masked mask => if guarded then (value &&& ~~~mask) ||| (old &&& mask) else value
  | _ => value

def previous (i : spec.Position) (old : UInt64) : UInt64 :=
  match (spec.cell i).kind with
  | .view _ mask => field mask old
  | _ => old

def isReadOnly (i : spec.Position) : Bool := (spec.cell i).kind == .readOnly

def isView (i : spec.Position) : Bool :=
  match (spec.cell i).kind with
  | .view _ _ => true
  | _ => false

end BankSpec

namespace Bank
variable {spec : BankSpec}

def initial (resets : Vector UInt64 spec.size) : Bank spec :=
  ⟨resets, resets, Vector.replicate _ []⟩

def read (b : Bank spec) (i : spec.Position) : UInt64 := spec.look b.values i

def dump (b : Bank spec) : List UInt64 := (List.finRange spec.size).map b.read

def resetValue (b : Bank spec) (i : spec.Position) : UInt64 := spec.look b.resets i

def notify (b : Bank spec) (i : spec.Position) (access : Access) : List Signal :=
  b.observers[i].map fun id =>
    .register id ⟨access, (spec.cell i).name, (spec.cell i).number⟩

def store (b : Bank spec) (i : spec.Position) (guarded : Bool) (value : UInt64) :
    UInt64 × Bank spec :=
  let owner := spec.owner i
  let old := b.values[owner]
  (spec.previous i old,
    { b with values := b.values.set owner (spec.stored i guarded old value) })

def get (b : Bank spec) (i : spec.Position) : Reading UInt64 := ⟨b.read i, b.notify i .read⟩

/-- Writes a cell and answers what it held. A read-only cell keeps its value and nobody is
told. -/
def set (b : Bank spec) (i : spec.Position) (value : UInt64) : Step (Bank spec) UInt64 :=
  if spec.isReadOnly i then .quiet (b.read i) b
  else
    let (old, b) := b.store i true value
    ⟨old, b, b.notify i .write⟩

/-- Writes a cell without telling anybody. Masked bits and read-only cells are written too. -/
def backdoor (b : Bank spec) (i : spec.Position) (value : UInt64) : UInt64 × Bank spec :=
  b.store i false value

/-- Restores the reset value of a cell. A view follows its base and is left alone. -/
def reset (b : Bank spec) (i : spec.Position) : Bank spec :=
  if spec.isView i then b
  else { b with values := b.values.set i b.resets[i] }

def setResetValue (b : Bank spec) (i : spec.Position) (value : UInt64) : Bank spec :=
  { b with resets := b.resets.set i value }

def observe (b : Bank spec) (i : spec.Position) (id : ObserverId) : Bank spec :=
  { b with observers := b.observers.set i (b.observers[i] ++ [id]) }

def unobserve (b : Bank spec) (i : spec.Position) (id : ObserverId) : Bool × Bank spec :=
  (b.observers[i].contains id,
    { b with observers := b.observers.set i (b.observers[i].filter (· != id)) })

def unobserveAll (b : Bank spec) (i : spec.Position) : Bank spec :=
  { b with observers := b.observers.set i [] }

def observerCount (b : Bank spec) (i : spec.Position) : Nat := b.observers[i].length

theorem set_of_writable {b : Bank spec} {i : spec.Position} (h : spec.isReadOnly i = false)
    (value : UInt64) :
    b.set i value =
      ⟨(b.store i true value).1, (b.store i true value).2,
        (b.store i true value).2.notify i .write⟩ := by
  rw [set, h]
  rfl

theorem values_store (b : Bank spec) (i : spec.Position) (guarded : Bool) (value : UInt64) :
    (b.store i guarded value).2.values =
      b.values.set (spec.owner i) (spec.stored i guarded b.values[spec.owner i] value) := rfl

end Bank

namespace BankSpec
variable {spec : BankSpec}

theorem look_of_view {i : spec.Position} {base : Nat} {mask : UInt64}
    (h : (spec.cell i).kind = .view base mask) (store : Vector UInt64 spec.size) :
    spec.look store i =
      field mask (spec.look store (spec.basePosition i base (spec.base_lt h))) := by
  rw [look]
  split
  · rename_i b m hk
    rw [h] at hk
    cases hk
    rfl
  · rename_i hk
    exact absurd h (hk base mask)

theorem look_of_not_view {i : spec.Position} (h : spec.isView i = false)
    (store : Vector UInt64 spec.size) : spec.look store i = store.get i := by
  rw [look]
  split
  · rename_i b m hk
    simp [isView, hk] at h
  · rfl

end BankSpec
end ArchState
