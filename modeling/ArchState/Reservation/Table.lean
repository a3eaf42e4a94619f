import ArchState.Text.Hex
import ArchState.Word

/-! # The reservations of one hart

A table is a queue of at most eight distinct reservations, oldest first. Reserving again makes
a reservation the newest one; in a full table a new reservation replaces the oldest.
-/
namespace ArchState

inductive ReservationWidth where
  | word
  | double
  deriving DecidableEq, Repr

namespace ReservationWidth

/-- The number of bytes, and what addresses must be a multiple of. -/
def bytes : ReservationWidth → Nat
  | word => 4
  | double => 8

def letter : ReservationWidth → Char
  | word => 'w'
  | double => 'd'

def debug : ReservationWidth → String
  | word => "Word"
  | double => "DoubleWord"

end ReservationWidth

structure Reservation where
  address : UInt32
  width : ReservationWidth
  deriving DecidableEq, Repr

namespace Reservation

/-- Whether a reservation counts for a conditional store: it is for the same address and
width, or for the double word that holds the address. -/
def covers (r : Reservation) (a : UInt32) (w : ReservationWidth) : Bool :=
  (r.address == a && r.width == w) || (r.width == .double && r.address == doubleBase a)

theorem covers_iff {r : Reservation} {a : UInt32} {w : ReservationWidth} :
    r.covers a w = true ↔ r = ⟨a, w⟩ ∨ r = ⟨doubleBase a, .double⟩ := by
  obtain ⟨b, v⟩ := r
  simp only [covers, Bool.or_eq_true, Bool.and_eq_true, beq_iff_eq, mk.injEq]
  rw [and_comm (a := v = .double)]

def debug (r : Reservation) : String :=
  "Reservation \x7b address: " ++ toString r.address.toNat ++ ", width: " ++ r.width.debug
    ++ " \x7d"

end Reservation

def reservationCapacity : Nat := 8

structure ReservationTable where
  entries : List Reservation
  length_le : entries.length ≤ reservationCapacity
  nodup : entries.Nodup
  deriving DecidableEq

namespace ReservationTable

def empty : ReservationTable := ⟨[], Nat.zero_le _, List.nodup_nil⟩

def kept (entries : List Reservation) (r : Reservation) : List Reservation :=
  let others := entries.filter (· != r)
  if others.length = reservationCapacity then others.tail else others

theorem kept_sublist (entries : List Reservation) (r : Reservation) :
    (kept entries r).Sublist (entries.filter (· != r)) := by
  unfold kept
  dsimp only
  split
  · exact List.tail_sublist _
  · exact List.Sublist.refl _

theorem kept_length_lt {entries : List Reservation} (h : entries.length ≤ reservationCapacity)
    (r : Reservation) : (kept entries r).length < reservationCapacity := by
  have hf := List.length_filter_le (· != r) entries
  unfold kept
  dsimp only
  split
  · rename_i he
    rw [List.length_tail, he]
    decide
  · rename_i hn
    omega

def reserve (t : ReservationTable) (a : UInt32) (w : ReservationWidth) : ReservationTable where
  entries := kept t.entries ⟨a, w⟩ ++ [⟨a, w⟩]
  length_le := by
    have := kept_length_lt t.length_le ⟨a, w⟩
    rw [List.length_append, List.length_singleton]
    omega
  nodup := by
    rw [List.nodup_append]
    refine ⟨((kept_sublist _ _).trans List.filter_sublist).nodup t.nodup, by simp, ?_⟩
    rintro x hx y hy rfl
    rw [List.mem_singleton] at hy
    subst hy
    have := (kept_sublist _ _).subset hx
    simp at this

def unreserve (t : ReservationTable) (a : UInt32) (w : ReservationWidth) : ReservationTable where
  entries := t.entries.filter fun r => !r.covers a w
  length_le := Nat.le_trans (List.length_filter_le _ _) t.length_le
  nodup := List.filter_sublist.nodup t.nodup

def contains (t : ReservationTable) (a : UInt32) (w : ReservationWidth) : Bool :=
  t.entries.any (·.covers a w)

def cells (t : ReservationTable) (i : Nat) : List String :=
  match t.entries[i]? with
  | some r => [Text.address r.address, r.width.letter.toString]
  | none => [Text.address 0, " "]

def debug (t : ReservationTable) : String :=
  "ReservationTable \x7b entries: [" ++ ", ".intercalate (t.entries.map Reservation.debug)
    ++ "] \x7d"

theorem contains_iff {t : ReservationTable} {a : UInt32} {w : ReservationWidth} :
    t.contains a w = true ↔ ∃ r ∈ t.entries, r.covers a w = true := by simp [contains]

theorem mem_reserve {t : ReservationTable} {a : UInt32} {w : ReservationWidth} {r : Reservation}
    (h : r ∈ (t.reserve a w).entries) : r = ⟨a, w⟩ ∨ r ∈ t.entries := by
  rcases List.mem_append.mp h with hk | hn
  · exact .inr (List.mem_filter.mp ((kept_sublist _ _).subset hk)).1
  · exact .inl (List.mem_singleton.mp hn)

theorem mem_unreserve {t : ReservationTable} {a : UInt32} {w : ReservationWidth}
    {r : Reservation} : r ∈ (t.unreserve a w).entries ↔ r ∈ t.entries ∧ r.covers a w = false := by
  simp [unreserve]

end ReservationTable
end ArchState
