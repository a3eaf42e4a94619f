import ArchState.Reservation.Tables

/-! # Runs of reservation requests

The harts share the tables and their requests reach them one after the other, so every
interleaving is a list of requests. An entry is in a table because a reserved load of its hart
has put it there; all other requests only take entries away.
-/
namespace ArchState

inductive ReservationRequest where
  | reserve (hart : Nat) (a : UInt32) (w : ReservationWidth)
  | unreserve (hart : Nat) (a : UInt32) (w : ReservationWidth)
  | reset
  deriving DecidableEq, Repr

namespace Reservations
variable {r : Reservations} {t : ReservationTable} {hart other : Nat} {a : UInt32}
  {w : ReservationWidth} {e : Reservation}

def after (r : Reservations) : ReservationRequest → Reservations
  | .reserve hart a w => (r.reserve hart a w).state
  | .unreserve hart a w => (r.unreserve hart a w).state
  | .reset => r.reset.state

def run (r : Reservations) (requests : List ReservationRequest) : Reservations :=
  requests.foldl after r

def Holds (r : Reservations) (hart : Nat) (e : Reservation) : Prop :=
  ∃ t, r.tables[hart]? = some t ∧ e ∈ t.entries

theorem tableFor_of_misaligned (h : a.toNat % w.bytes ≠ 0) (access : Access) (hart : Nat) :
    r.tableFor access hart a w = .error (.address ⟨access, .misaligned, a⟩) := by
  rw [tableFor, checkAligned, if_neg h]
  rfl

theorem tableFor_of_no_hart (h : a.toNat % w.bytes = 0) (hh : r.harts ≤ hart) (access : Access) :
    r.tableFor access hart a w = .error (.noSuchHart hart r.harts) := by
  rw [tableFor, checkAligned, if_pos h, table, List.getElem?_eq_none hh]
  rfl

theorem tableFor_of_hart (h : a.toNat % w.bytes = 0) (ht : r.tables[hart]? = some t)
    (access : Access) : r.tableFor access hart a w = .ok t := by
  rw [tableFor, checkAligned, if_pos h, table, ht]
  rfl

theorem tableFor_cases (r : Reservations) (hart : Nat) (a : UInt32) (w : ReservationWidth) :
    a.toNat % w.bytes ≠ 0 ∨ a.toNat % w.bytes = 0 ∧ r.harts ≤ hart ∨
      a.toNat % w.bytes = 0 ∧ ∃ t, r.tables[hart]? = some t := by
  by_cases h : a.toNat % w.bytes = 0
  · right
    by_cases hh : hart < r.harts
    · exact .inr ⟨h, _, List.getElem?_eq_getElem hh⟩
    · exact .inl ⟨h, Nat.le_of_not_lt hh⟩
  · exact .inl h

theorem reserve_of_table (h : a.toNat % w.bytes = 0) (ht : r.tables[hart]? = some t) :
    r.reserve hart a w = r.changed (.ok ()) (r.tables.set hart (t.reserve a w)) := by
  rw [reserve, tableFor_of_hart h ht]
  rfl

theorem unreserve_of_table (h : a.toNat % w.bytes = 0) (ht : r.tables[hart]? = some t) :
    r.unreserve hart a w =
      if t.contains a w then r.changed (.ok true) (r.tables.map (·.unreserve a w))
      else .quiet (.ok false) r := by
  rw [unreserve, tableFor_of_hart h ht]
  rfl

theorem requests_of_misaligned (h : a.toNat % w.bytes ≠ 0) (hart : Nat) :
    r.reserve hart a w = .quiet (.error (.address ⟨.read, .misaligned, a⟩)) r ∧
      r.unreserve hart a w = .quiet (.error (.address ⟨.write, .misaligned, a⟩)) r := by
  rw [reserve, unreserve, tableFor_of_misaligned h, tableFor_of_misaligned h]
  exact ⟨rfl, rfl⟩

theorem requests_of_no_hart (h : a.toNat % w.bytes = 0) (hh : r.harts ≤ hart) :
    r.reserve hart a w = .quiet (.error (.noSuchHart hart r.harts)) r ∧
      r.unreserve hart a w = .quiet (.error (.noSuchHart hart r.harts)) r := by
  rw [reserve, unreserve, tableFor_of_no_hart h hh, tableFor_of_no_hart h hh]
  exact ⟨rfl, rfl⟩

theorem unreserve_eq_true_iff : (r.unreserve hart a w).answer = .ok true ↔
    a.toNat % w.bytes = 0 ∧ ∃ e, r.Holds hart e ∧ e.covers a w = true := by
  rcases r.tableFor_cases hart a w with h | ⟨h, hh⟩ | ⟨h, t, ht⟩
  · rw [(requests_of_misaligned h hart).2]
    exact ⟨nofun, fun hc => absurd hc.1 h⟩
  · rw [(requests_of_no_hart h hh).2]
    constructor
    · exact nofun
    · rintro ⟨-, e, ⟨t, ht, -⟩, -⟩
      rw [List.getElem?_eq_none hh] at ht
      exact nomatch ht
  · have hcontains : t.contains a w = true ↔ ∃ e, r.Holds hart e ∧ e.covers a w = true := by
      rw [ReservationTable.contains_iff]
      constructor
      · rintro ⟨e, he, hc⟩
        exact ⟨e, ⟨t, ht, he⟩, hc⟩
      · rintro ⟨e, ⟨u, hu, he⟩, hc⟩
        obtain rfl := Option.some.inj (ht.symm.trans hu)
        exact ⟨e, he, hc⟩
    rw [unreserve_of_table h ht, ← hcontains]
    by_cases hc : t.contains a w = true
    · rw [if_pos hc]
      exact ⟨fun _ => ⟨h, hc⟩, fun _ => rfl⟩
    · rw [if_neg hc]
      exact ⟨nofun, fun hn => absurd hn.2 hc⟩

theorem unreserve_state (h : (r.unreserve hart a w).answer = .ok true) :
    (r.unreserve hart a w).state = { r with tables := r.tables.map (·.unreserve a w) } := by
  obtain ⟨ha, e, ⟨t, ht, he⟩, hc⟩ := unreserve_eq_true_iff.mp h
  rw [unreserve_of_table ha ht, if_pos (ReservationTable.contains_iff.mpr ⟨e, he, hc⟩)]
  rfl

theorem holds_unreserve (h : (r.unreserve hart a w).answer = .ok true) :
    (r.unreserve hart a w).state.Holds other e ↔ r.Holds other e ∧ e.covers a w = false := by
  rw [unreserve_state h]
  simp only [Holds, List.getElem?_map, Option.map_eq_some_iff]
  constructor
  · rintro ⟨-, ⟨t, ht, rfl⟩, he⟩
    obtain ⟨hm, hc⟩ := ReservationTable.mem_unreserve.mp he
    exact ⟨⟨t, ht, hm⟩, hc⟩
  · rintro ⟨⟨t, ht, hm⟩, hc⟩
    exact ⟨_, ⟨t, ht, rfl⟩, ReservationTable.mem_unreserve.mpr ⟨hm, hc⟩⟩

theorem unreserve_state_of_ne (h : (r.unreserve hart a w).answer ≠ .ok true) :
    r.unreserve hart a w = .quiet (r.unreserve hart a w).answer r := by
  rcases r.tableFor_cases hart a w with hm | ⟨hm, hh⟩ | ⟨hm, t, ht⟩
  · rw [(requests_of_misaligned hm hart).2]
    rfl
  · rw [(requests_of_no_hart hm hh).2]
    rfl
  · rw [unreserve_of_table hm ht] at h ⊢
    split at h
    · exact absurd rfl h
    · rename_i hc
      rw [if_neg hc]
      rfl

@[simp] theorem run_cons (r : Reservations) (q : ReservationRequest)
    (requests : List ReservationRequest) : r.run (q :: requests) = (r.after q).run requests := rfl

theorem harts_after (r : Reservations) (q : ReservationRequest) : (r.after q).harts = r.harts := by
  cases q with
  | reserve hart a w =>
    rw [after]
    rcases r.tableFor_cases hart a w with h | ⟨h, hh⟩ | ⟨h, t, ht⟩
    · rw [(requests_of_misaligned h hart).1, Step.quiet]
    · rw [(requests_of_no_hart h hh).1, Step.quiet]
    · rw [reserve_of_table h ht]
      exact List.length_set
  | unreserve hart a w =>
    rw [after]
    by_cases h : (r.unreserve hart a w).answer = .ok true
    · rw [unreserve_state h]
      exact List.length_map _
    · rw [unreserve_state_of_ne h, Step.quiet]
  | reset => exact List.length_map _

theorem harts_run (r : Reservations) (requests : List ReservationRequest) :
    (r.run requests).harts = r.harts := by
  induction requests generalizing r with
  | nil => rfl
  | cons q requests ih => rw [run_cons, ih, harts_after]

/-- An entry that a hart holds after a request was there before, unless the request was the
reserved load for it. -/
theorem holds_after {q : ReservationRequest} (h : (r.after q).Holds hart e) :
    r.Holds hart e ∨
      q = .reserve hart e.address e.width ∧
        (r.reserve hart e.address e.width).answer = .ok () := by
  cases q with
  | reserve other a w =>
    rw [after] at h
    rcases r.tableFor_cases other a w with hm | ⟨hm, hh⟩ | ⟨hm, t, ht⟩
    · rw [(requests_of_misaligned hm other).1] at h
      exact .inl h
    · rw [(requests_of_no_hart hm hh).1] at h
      exact .inl h
    · have hreserve := reserve_of_table hm ht
      rw [hreserve] at h
      obtain ⟨u, hu, he⟩ := h
      change (r.tables.set other (t.reserve a w))[hart]? = some u at hu
      rw [List.getElem?_set] at hu
      by_cases hsame : other = hart
      · subst hsame
        rw [if_pos rfl] at hu
        split at hu
        · obtain rfl := Option.some.inj hu
          rcases ReservationTable.mem_reserve he with rfl | hold
          · exact .inr ⟨rfl, by rw [hreserve]; rfl⟩
          · exact .inl ⟨t, ht, hold⟩
        · exact nomatch hu
      · rw [if_neg hsame] at hu
        exact .inl ⟨u, hu, he⟩
  | unreserve other a w =>
    rw [after] at h
    by_cases hs : (r.unreserve other a w).answer = .ok true
    · exact .inl ((holds_unreserve hs).mp h).1
    · rw [unreserve_state_of_ne hs] at h
      exact .inl h
  | reset =>
    obtain ⟨u, hu, he⟩ := h
    change (r.tables.map fun _ => ReservationTable.empty)[hart]? = some u at hu
    rw [List.getElem?_map, Option.map_eq_some_iff] at hu
    obtain ⟨-, -, rfl⟩ := hu
    exact nomatch he

/-- An entry that a hart holds after a run was there before, unless a reserved load for it is
part of the run. -/
theorem holds_run {requests : List ReservationRequest} (h : (r.run requests).Holds hart e) :
    r.Holds hart e ∨ ∃ before later,
      requests = before ++ .reserve hart e.address e.width :: later ∧
        ((r.run before).reserve hart e.address e.width).answer = .ok () := by
  induction requests generalizing r with
  | nil => exact .inl h
  | cons q requests ih =>
    rcases ih h with hq | ⟨before, later, rfl, hok⟩
    · rcases holds_after hq with hr | ⟨rfl, hok⟩
      · exact .inl hr
      · exact .inr ⟨[], requests, rfl, hok⟩
    · exact .inr ⟨q :: before, later, rfl, hok⟩

end Reservations
end ArchState
