import ArchState.Fault
import ArchState.Reservation.Table
import ArchState.Signal

/-! # The reservations of all harts

A reserved load adds a reservation to its hart's table. A conditional store succeeds when its
hart holds a reservation that counts, and then takes every such reservation from all harts.
Observers are shown all tables after each change.
-/
namespace ArchState

structure Reservations where
  tables : List ReservationTable
  observers : List ObserverId

namespace Reservations

def initial (harts : Nat) : Reservations := ⟨List.replicate harts .empty, []⟩

def harts (r : Reservations) : Nat := r.tables.length

def table (r : Reservations) (hart : Nat) : Except ReservationFault ReservationTable :=
  match r.tables[hart]? with
  | some t => .ok t
  | none => .error (.noSuchHart hart r.harts)

/-- All tables for display: a row for each place, with the cells of each hart in turn. -/
def rows (r : Reservations) : List (List String) :=
  (List.range reservationCapacity).map fun i => r.tables.flatMap fun t => t.cells i

def notify (r : Reservations) : List Signal := r.observers.map fun id => .reservations id r.rows

def checkAligned (access : Access) (a : UInt32) (w : ReservationWidth) :
    Except ReservationFault Unit :=
  if a.toNat % w.bytes = 0 then .ok () else .error (.address ⟨access, .misaligned, a⟩)

def changed {α : Type} (r : Reservations) (answer : α) (tables : List ReservationTable) :
    Step Reservations α :=
  let r := { r with tables }
  ⟨answer, r, r.notify⟩

def tableFor (r : Reservations) (access : Access) (hart : Nat) (a : UInt32)
    (w : ReservationWidth) : Except ReservationFault ReservationTable := do
  checkAligned access a w
  r.table hart

def reserve (r : Reservations) (hart : Nat) (a : UInt32) (w : ReservationWidth) :
    Step Reservations (Except ReservationFault Unit) :=
  .guarded (r.tableFor .read hart a w) r fun t =>
    r.changed (.ok ()) (r.tables.set hart (t.reserve a w))

def unreserve (r : Reservations) (hart : Nat) (a : UInt32) (w : ReservationWidth) :
    Step Reservations (Except ReservationFault Bool) :=
  .guarded (r.tableFor .write hart a w) r fun t =>
    if t.contains a w then r.changed (.ok true) (r.tables.map (·.unreserve a w))
    else .quiet (.ok false) r

/-- Whether a hart holds a reservation that counts. The address need not be aligned. -/
def contains (r : Reservations) (hart : Nat) (a : UInt32) (w : ReservationWidth) :
    Except ReservationFault Bool :=
  (r.table hart).map (·.contains a w)

def reset (r : Reservations) : Step Reservations Unit := r.changed () (r.tables.map fun _ => .empty)

def observe (r : Reservations) (id : ObserverId) : Reservations :=
  { r with observers := r.observers ++ [id] }

def unobserve (r : Reservations) (id : ObserverId) : Bool × Reservations :=
  (r.observers.contains id, { r with observers := r.observers.filter (· != id) })

def debug (r : Reservations) : String :=
  "ReservationTables \x7b harts: " ++ toString r.harts
    ++ ", tables: [" ++ ", ".intercalate (r.tables.map ReservationTable.debug) ++ "], .. \x7d"

end Reservations
end ArchState
