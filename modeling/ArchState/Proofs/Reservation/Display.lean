import ArchState.Proofs.Reservation.Run
import ArchState.Proofs.Roster
import ArchState.Proofs.Text.Address

/-! # The display of reservations

The display has a row for each of the eight places of a table and two cells for each hart in a row.
A table has no more than eight entries and an empty place is marked by its width, so nothing is
lost: the tables can be read off the display. After each change of the tables the display is shown
to all observers that live.
-/
namespace ArchState

/-- The calls that change the tables or their observers. -/
inductive ReservationCall where
  | request (q : ReservationRequest)
  | observe (id : ObserverId)
  | unobserve (id : ObserverId)
  deriving DecidableEq, Repr

def ReservationCall.roster : ReservationCall → List RosterEvent
  | request _ => []
  | observe id => [.joined id]
  | unobserve id => [.left id]

namespace Reservations
variable {r s : Reservations} {t : ReservationTable} {hart i : Nat}

def serve (r : Reservations) : ReservationCall → Step Reservations Unit
  | .request (.reserve hart a w) => (r.reserve hart a w).map fun _ => ()
  | .request (.unreserve hart a w) => (r.unreserve hart a w).map fun _ => ()
  | .request .reset => r.reset
  | .observe id => .quiet () (r.observe id)
  | .unobserve id => .quiet () (r.unobserve id).2

def serveAll (r : Reservations) (calls : List ReservationCall) : Reservations :=
  calls.foldl (fun r call => (r.serve call).state) r

/-- The calls that are shown to observers: reserved loads and conditional stores that succeed, and
resets. -/
def Shown (r : Reservations) : ReservationCall → Prop
  | .request (.reserve hart a w) => (r.reserve hart a w).answer = .ok ()
  | .request (.unreserve hart a w) => (r.unreserve hart a w).answer = .ok true
  | .request .reset => True
  | .observe _ | .unobserve _ => False

/-- The display of `r`, sent to each of some observers in turn. -/
def displayTo (r : Reservations) (observers : List ObserverId) : List Signal :=
  observers.map fun id => .reservations id r.rows

theorem state_request (r : Reservations) (q : ReservationRequest) :
    (r.serve (.request q)).state = r.after q := by
  cases q <;> rfl

theorem observers_after (r : Reservations) (q : ReservationRequest) :
    (r.after q).observers = r.observers := by
  cases q with
  | reserve hart a w =>
    rw [after]
    rcases r.tableFor_cases hart a w with h | ⟨h, hh⟩ | ⟨h, t, ht⟩
    · rw [(requests_of_misaligned h hart).1, Step.quiet]
    · rw [(requests_of_no_hart h hh).1, Step.quiet]
    · rw [reserve_of_table h ht, changed]
  | unreserve hart a w =>
    rw [after]
    by_cases h : (r.unreserve hart a w).answer = .ok true
    · rw [unreserve_state h]
    · rw [unreserve_state_of_ne h, Step.quiet]
  | reset => rfl

theorem harts_serve (r : Reservations) (call : ReservationCall) :
    (r.serve call).state.harts = r.harts := by
  cases call with
  | request q => rw [state_request, harts_after]
  | observe id => rfl
  | unobserve id => rfl

theorem harts_serveAll (r : Reservations) (calls : List ReservationCall) :
    (r.serveAll calls).harts = r.harts := by
  induction calls generalizing r with
  | nil => rfl
  | cons call calls ih => exact (ih (r.serve call).state).trans (r.harts_serve call)

theorem observers_serve {events : List RosterEvent} (h : r.observers = RosterEvent.living events)
    (call : ReservationCall) :
    (r.serve call).state.observers = RosterEvent.living (events ++ call.roster) := by
  cases call with
  | request q =>
    rw [state_request, observers_after, h, ReservationCall.roster, List.append_nil]
  | observe id =>
    rw [ReservationCall.roster, RosterEvent.living_joined, ← h]
    rfl
  | unobserve id =>
    rw [ReservationCall.roster, RosterEvent.living_left, ← h]
    rfl

theorem observers_serveAll {events : List RosterEvent}
    (h : r.observers = RosterEvent.living events) (calls : List ReservationCall) :
    (r.serveAll calls).observers =
      RosterEvent.living (events ++ calls.flatMap ReservationCall.roster) := by
  induction calls generalizing r events with
  | nil => rw [List.flatMap_nil, List.append_nil]; exact h
  | cons call calls ih =>
    rw [List.flatMap_cons, ← List.append_assoc]
    exact ih (observers_serve h call)

/-- What is sent is the display after the call, to each observer, or nothing. -/
theorem signals_serve (r : Reservations) (call : ReservationCall) :
    (r.Shown call → (r.serve call).signals = (r.serve call).state.displayTo r.observers) ∧
      (¬ r.Shown call → (r.serve call).signals = []) := by
  cases call with
  | request q =>
    cases q with
    | reserve hart a w =>
      rw [Shown, serve]
      rcases r.tableFor_cases hart a w with h | ⟨h, hh⟩ | ⟨h, t, ht⟩
      · rw [(requests_of_misaligned h hart).1]
        exact ⟨nofun, fun _ => rfl⟩
      · rw [(requests_of_no_hart h hh).1]
        exact ⟨nofun, fun _ => rfl⟩
      · rw [reserve_of_table h ht]
        exact ⟨fun _ => rfl, fun hn => absurd rfl hn⟩
    | unreserve hart a w =>
      rw [Shown, serve]
      constructor
      · intro hok
        obtain ⟨h, e, ⟨t, ht, he⟩, hc⟩ := unreserve_eq_true_iff.mp hok
        rw [unreserve_of_table h ht, if_pos (ReservationTable.contains_iff.mpr ⟨e, he, hc⟩)]
        rfl
      · intro hno
        rw [unreserve_state_of_ne hno]
        rfl
    | reset => exact ⟨fun _ => rfl, fun hn => absurd trivial hn⟩
  | observe id => exact ⟨nofun, fun _ => rfl⟩
  | unobserve id => exact ⟨nofun, fun _ => rfl⟩

/-- What two cells show: an entry with its address and width, or none. -/
def CellsShow (address width : String) : Option Reservation → Prop
  | some e => Text.WritesAddress address e.address ∧ width = e.width.letter.toString
  | none => address = "0x00000000" ∧ width = " "

def readCells (address width : String) : Option Reservation :=
  if width = "w" then some ⟨Text.readAddress address, .word⟩
  else if width = "d" then some ⟨Text.readAddress address, .double⟩
  else none

/-- The entries of a hart as they are read off a display. -/
def entriesShown (rows : List (List String)) (hart : Nat) : List Reservation :=
  rows.filterMap fun row =>
    (row[2 * hart]?).bind fun address => (row[2 * hart + 1]?).bind (readCells address)

theorem CellsShow.read {address width : String} {e : Option Reservation}
    (h : CellsShow address width e) : readCells address width = e := by
  cases e with
  | none => rw [h.2, readCells, if_neg (by decide), if_neg (by decide)]
  | some e =>
    obtain ⟨a, w⟩ := e
    obtain ⟨haddress, rfl⟩ := h
    have hword : ReservationWidth.word.letter.toString = "w" := rfl
    have hdouble : ReservationWidth.double.letter.toString = "d" := rfl
    cases w with
    | word => rw [hword, readCells, if_pos rfl, haddress.readAddress_eq]
    | double => rw [hdouble, readCells, if_neg (by decide), if_pos rfl, haddress.readAddress_eq]

theorem cells_show (t : ReservationTable) (i : Nat) : ∃ address width,
    t.cells i = [address, width] ∧ CellsShow address width t.entries[i]? := by
  rw [ReservationTable.cells]
  cases t.entries[i]? with
  | none => exact ⟨_, _, rfl, by decide, rfl⟩
  | some e => exact ⟨_, _, rfl, Text.writesAddress_address e.address, rfl⟩

theorem length_cells (t : ReservationTable) (i : Nat) : (t.cells i).length = 2 := by
  obtain ⟨address, width, hcells, -⟩ := cells_show t i
  rw [hcells]
  rfl

/-- A row that is put together from two cells for each table has the cells of a table at their
place. -/
theorem getElem?_flatMap_cells {f : ReservationTable → List String}
    (hf : ∀ t, (f t).length = 2) {tables : List ReservationTable}
    (ht : tables[hart]? = some t) {j : Nat} (hj : j < 2) :
    (tables.flatMap f)[2 * hart + j]? = (f t)[j]? := by
  induction tables generalizing hart with
  | nil => exact nomatch ht
  | cons first tables ih =>
    rw [List.flatMap_cons]
    cases hart with
    | zero =>
      obtain rfl := Option.some.inj ht
      rw [Nat.mul_zero, Nat.zero_add]
      exact List.getElem?_append_left (hf first ▸ hj)
    | succ hart =>
      rw [List.getElem?_append_right (by rw [hf]; omega), hf,
        show 2 * (hart + 1) + j - 2 = 2 * hart + j by omega]
      exact ih ht

theorem length_rows (r : Reservations) : r.rows.length = 8 := by
  simp [rows, reservationCapacity]

theorem getElem?_rows (r : Reservations) (hi : i < 8) :
    r.rows[i]? = some (r.tables.flatMap fun t => t.cells i) := by
  simp [rows, reservationCapacity, hi]

theorem length_row (r : Reservations) {row : List String} (h : row ∈ r.rows) :
    row.length = 2 * r.harts := by
  obtain ⟨i, -, rfl⟩ := List.mem_map.mp h
  have hpairs : ∀ tables : List ReservationTable,
      (tables.flatMap fun t => t.cells i).length = 2 * tables.length := by
    intro tables
    induction tables with
    | nil => rfl
    | cons t tables ih =>
      rw [List.flatMap_cons, List.length_append, length_cells, ih, List.length_cons]
      omega
  exact hpairs r.tables

/-- The cells of a hart in a row show the entry at the place of the row. -/
theorem row_shows (ht : r.tables[hart]? = some t) (i : Nat) : ∃ address width,
    (r.tables.flatMap fun t => t.cells i)[2 * hart]? = some address ∧
      (r.tables.flatMap fun t => t.cells i)[2 * hart + 1]? = some width ∧
      CellsShow address width t.entries[i]? := by
  obtain ⟨address, width, hcells, hshow⟩ := cells_show t i
  have hrow {j : Nat} (hj : j < 2) :
      (r.tables.flatMap fun t => t.cells i)[2 * hart + j]? = [address, width][j]? := by
    rw [getElem?_flatMap_cells (fun t => length_cells t i) ht hj, hcells]
  exact ⟨address, width, hrow Nat.zero_lt_two, hrow Nat.one_lt_two, hshow⟩

theorem filterMap_getElem?_range {α : Type} (l : List α) {n : Nat} (h : l.length ≤ n) :
    (List.range n).filterMap (l[·]?) = l := by
  induction n generalizing l with
  | zero => simp [List.length_eq_zero_iff.mp (Nat.le_zero.mp h)]
  | succ n ih =>
    cases l with
    | nil => simp
    | cons a l =>
      have hfirst : (a :: l)[0]? = some a := rfl
      rw [List.range_succ_eq_map, List.filterMap_cons_some hfirst, List.filterMap_map]
      exact congrArg (a :: ·) (ih l (Nat.le_of_succ_le_succ h))

/-- A table has no more entries than the display has rows, so all of them are shown. -/
theorem entriesShown_rows (ht : r.tables[hart]? = some t) :
    entriesShown r.rows hart = t.entries := by
  have hrow : ∀ i, ((r.tables.flatMap fun t => t.cells i)[2 * hart]?).bind (fun address =>
      ((r.tables.flatMap fun t => t.cells i)[2 * hart + 1]?).bind (readCells address)) =
        t.entries[i]? := by
    intro i
    obtain ⟨address, width, haddress, hwidth, hshow⟩ := row_shows ht i
    rw [haddress, hwidth]
    exact hshow.read
  rw [entriesShown, rows, List.filterMap_map]
  simp only [Function.comp_def, hrow]
  exact filterMap_getElem?_range t.entries t.length_le

theorem harts_eq_of_rows_eq (h : r.rows = s.rows) : r.harts = s.harts := by
  obtain ⟨row, hrow⟩ : ∃ row, row ∈ r.rows :=
    List.exists_mem_of_length_pos (by rw [length_rows]; decide)
  have hr := r.length_row hrow
  have hs := s.length_row (h ▸ hrow)
  omega

theorem tables_eq_of_rows_eq (h : r.rows = s.rows) : r.tables = s.tables := by
  have hharts : r.tables.length = s.tables.length := harts_eq_of_rows_eq h
  refine List.ext_getElem hharts fun hart hr hs => ?_
  have hentries : r.tables[hart].entries = s.tables[hart].entries := by
    rw [← entriesShown_rows (List.getElem?_eq_getElem hr),
      ← entriesShown_rows (List.getElem?_eq_getElem hs), h]
  exact ReservationTable.mk.injEq .. ▸ hentries

/-- The display has eight rows with two cells for each hart, which show the entries of its table,
the oldest first, and mark the places without one. The tables can be read off it, so that states
with the same display have the same tables. A reserved load or a conditional store that succeeds and
a reset send the display of the state that they leave once to each observer that lives, in the order
in which they joined, and all other calls send nothing. -/
theorem display_shows_tables (harts : Nat) (calls : List ReservationCall) :
    let r := (initial harts).serveAll calls
    let history := calls.flatMap ReservationCall.roster
    r.tables.length = harts ∧ r.rows.length = 8 ∧ (∀ row ∈ r.rows, row.length = 2 * harts) ∧
    (∀ hart t, r.tables[hart]? = some t → entriesShown r.rows hart = t.entries ∧
      ∀ (i : Nat) (row : List String), r.rows[i]? = some row → ∃ address width,
        row[2 * hart]? = some address ∧ row[2 * hart + 1]? = some width ∧
          CellsShow address width t.entries[i]?) ∧
    (∀ (otherHarts : Nat) (otherCalls : List ReservationCall),
      ((initial otherHarts).serveAll otherCalls).rows = r.rows →
        ((initial otherHarts).serveAll otherCalls).tables = r.tables) ∧
    (∀ call,
      (r.Shown call → (r.serve call).signals =
        (r.serve call).state.displayTo (RosterEvent.living history)) ∧
      (¬ r.Shown call → (r.serve call).signals = [])) ∧
    ((RosterEvent.joins history).Nodup → (RosterEvent.living history).Nodup) := by
  intro r history
  have hharts : r.harts = harts := by
    rw [harts_serveAll]
    exact List.length_replicate
  have hnone : (initial harts).observers = RosterEvent.living [] := rfl
  have hobservers : r.observers = RosterEvent.living history := observers_serveAll hnone calls
  refine ⟨hharts, r.length_rows, fun row hrow => hharts ▸ r.length_row hrow, ?_, ?_, ?_, ?_⟩
  · intro hart t ht
    refine ⟨entriesShown_rows ht, fun i row hrow => ?_⟩
    obtain ⟨hi, -⟩ := List.getElem?_eq_some_iff.mp hrow
    rw [length_rows] at hi
    rw [getElem?_rows r hi] at hrow
    obtain rfl := Option.some.inj hrow
    exact row_shows ht i
  · intro _ _ hrows
    exact tables_eq_of_rows_eq hrows
  · rw [← hobservers]
    exact r.signals_serve
  · exact (RosterEvent.living_sublist_joins history).nodup

/-- A reservation of address zero is told from an empty place. Of two observers the one that stays
is shown the display of a reset. -/
theorem zero_address_told_from_empty :
    let calls : List ReservationCall := [.observe ⟨1⟩, .observe ⟨2⟩,
      .request (.reserve 1 0 .word), .unobserve ⟨1⟩]
    let r := (initial 2).serveAll calls
    entriesShown r.rows 0 = [] ∧ entriesShown r.rows 1 = [⟨0, .word⟩] ∧
      (r.serve (.request .reset)).signals = [.reservations ⟨2⟩ (initial 2).rows] := by
  intro calls r
  obtain ⟨-, -, -, hshown, -, hsignals, -⟩ := display_shows_tables 2 calls
  refine ⟨(hshown 0 .empty rfl).1, (hshown 1 (ReservationTable.empty.reserve 0 .word) rfl).1, ?_⟩
  exact ((hsignals (.request .reset)).1 trivial).trans rfl

example : ((initial 2).reserve 1 0 .word).state.rows.head? =
    some ["0x00000000", " ", "0x00000000", "w"] := by decide

end Reservations
end ArchState
