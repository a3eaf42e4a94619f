import ArchState.Proofs.Reservation.Run

/-! # Conditional stores check and clear

Whether a conditional store succeeds depends on the table of its own hart, and then all tables
lose what it matched. Alignment is checked before the hart, and a request that fails changes
nothing and tells nobody.
-/
namespace ArchState

/-- Whether a request is a reserved load that counts for conditional stores of a hart. -/
def ReservationRequest.ReservesFor (q : ReservationRequest) (hart : Nat) (a : UInt32)
    (w : ReservationWidth) : Prop :=
  ∃ e : Reservation, q = .reserve hart e.address e.width ∧ e.covers a w = true

namespace Reservations
variable {r : Reservations} {t : ReservationTable} {hart other : Nat} {a : UInt32}
  {w : ReservationWidth}

theorem contains_of_table (ht : r.tables[hart]? = some t) :
    r.contains hart a w = .ok (t.contains a w) := by
  rw [contains, table, ht]
  rfl

theorem contains_table_iff (ht : r.tables[hart]? = some t) : t.contains a w = true ↔
    r.Holds hart ⟨a, w⟩ ∨ r.Holds hart ⟨doubleBase a, .double⟩ := by
  rw [ReservationTable.contains_iff]
  constructor
  · rintro ⟨e, he, hc⟩
    rcases Reservation.covers_iff.mp hc with rfl | rfl
    · exact .inl ⟨t, ht, he⟩
    · exact .inr ⟨t, ht, he⟩
  · rintro (⟨u, hu, he⟩ | ⟨u, hu, he⟩)
    · obtain rfl := Option.some.inj (ht.symm.trans hu)
      exact ⟨_, he, Reservation.covers_iff.mpr (.inl rfl)⟩
    · obtain rfl := Option.some.inj (ht.symm.trans hu)
      exact ⟨_, he, Reservation.covers_iff.mpr (.inr rfl)⟩

theorem entries_unreserve (t : ReservationTable) (a : UInt32) (w : ReservationWidth) :
    (t.unreserve a w).entries =
      t.entries.filter fun e => e ≠ ⟨a, w⟩ ∧ e ≠ ⟨doubleBase a, .double⟩ := by
  apply List.filter_congr
  intro e _
  rw [← Bool.coe_iff_coe]
  simp only [Bool.not_eq_true', ← Bool.not_eq_true, Reservation.covers_iff, not_or,
    decide_eq_true_eq]

theorem unreserve_after_success (h : (r.unreserve hart a w).answer = .ok true)
    (hother : other < r.harts) {requests : List ReservationRequest}
    (hq : ∀ q ∈ requests, ¬ q.ReservesFor other a w) :
    (((r.unreserve hart a w).state.run requests).unreserve other a w).answer = .ok false := by
  obtain ⟨ha, -⟩ := unreserve_eq_true_iff.mp h
  generalize hn : (r.unreserve hart a w).state.run requests = n
  have hharts : n.harts = r.harts := by
    rw [← hn, harts_run]
    exact harts_after r (.unreserve hart a w)
  have hlt : other < n.tables.length := Nat.lt_of_lt_of_eq hother hharts.symm
  have ht := List.getElem?_eq_getElem hlt
  rw [unreserve_of_table ha ht]
  split
  · rename_i hc
    obtain ⟨e, he, hcov⟩ := ReservationTable.contains_iff.mp hc
    have hholds : n.Holds other e := ⟨_, ht, he⟩
    rw [← hn] at hholds
    rcases holds_run hholds with hs | ⟨before, later, rfl, -⟩
    · rw [(holds_unreserve h).mp hs |>.2] at hcov
      exact nomatch hcov
    · exact absurd ⟨e, rfl, hcov⟩ (hq _ (List.mem_append_right _ List.mem_cons_self))
  · rfl

/-- A conditional store is an exact check and clear. -/
theorem unreserve_checks_and_clears (r : Reservations) (hart : Nat) (a : UInt32)
    (w : ReservationWidth) :
    (a.toNat % w.bytes ≠ 0 →
      r.reserve hart a w = .quiet (.error (.address ⟨.read, .misaligned, a⟩)) r ∧
      r.unreserve hart a w = .quiet (.error (.address ⟨.write, .misaligned, a⟩)) r) ∧
    (a.toNat % w.bytes = 0 → r.harts ≤ hart →
      r.reserve hart a w = .quiet (.error (.noSuchHart hart r.harts)) r ∧
      r.unreserve hart a w = .quiet (.error (.noSuchHart hart r.harts)) r) ∧
    (a.toNat % w.bytes = 0 → hart < r.harts → ∃ held,
      (r.unreserve hart a w).answer = .ok held ∧ r.contains hart a w = .ok held ∧
      (held = true ↔ r.Holds hart ⟨a, w⟩ ∨ r.Holds hart ⟨doubleBase a, .double⟩) ∧
      (held = true →
        (r.unreserve hart a w).state.observers = r.observers ∧
        (r.unreserve hart a w).state.tables.map (·.entries) = (r.tables.map fun t =>
          t.entries.filter fun e => e ≠ ⟨a, w⟩ ∧ e ≠ ⟨doubleBase a, .double⟩) ∧
        ∀ other < r.harts, ∀ requests : List ReservationRequest,
          (∀ q ∈ requests, ¬ q.ReservesFor other a w) →
          (((r.unreserve hart a w).state.run requests).unreserve other a w).answer = .ok false) ∧
      (held = false →
        (r.unreserve hart a w).state = r ∧ (r.unreserve hart a w).signals = [])) := by
  refine ⟨fun h => requests_of_misaligned h hart, fun h hh => requests_of_no_hart h hh, ?_⟩
  intro h hh
  have ht := List.getElem?_eq_getElem (hh : hart < r.tables.length)
  refine ⟨_, ?_, contains_of_table ht, contains_table_iff ht, ?_, ?_⟩
  · rw [unreserve_of_table h ht]
    split
    · rename_i hc
      rw [hc]
      rfl
    · rename_i hc
      rw [Bool.not_eq_true] at hc
      rw [hc]
      rfl
  · intro hc
    have hok : (r.unreserve hart a w).answer = .ok true := by
      rw [unreserve_of_table h ht, if_pos hc]
      rfl
    refine ⟨by rw [unreserve_state hok], ?_, ?_⟩
    · rw [unreserve_state hok, List.map_map]
      exact List.map_congr_left fun t _ => entries_unreserve t a w
    · intro other hother requests hq
      exact unreserve_after_success hok hother hq
  · intro hc
    rw [unreserve_of_table h ht, hc]
    exact ⟨rfl, rfl⟩

/-- A conditional store of a word ends the double-word reservation of another hart as well. -/
theorem word_store_checks_and_clears :
    let r := (initial 2).run [.reserve 0 0x1000 .word, .reserve 1 0x1000 .double]
    (r.unreserve 0 0x1000 .word).answer = .ok true ∧
      (((r.unreserve 0 0x1000 .word).state.run [.reserve 0 0x1000 .word]).unreserve
        1 0x1000 .word).answer = .ok false := by
  intro r
  obtain ⟨held, hanswer, hcontains, -, hclear, -⟩ :=
    (unreserve_checks_and_clears r 0 0x1000 .word).2.2 (by decide) (by decide)
  have hheld : held = true := (Except.ok.inj hcontains).symm
  rw [hheld] at hanswer
  refine ⟨hanswer, (hclear hheld).2.2 1 (by decide) _ ?_⟩
  intro q hq
  rw [List.mem_singleton] at hq
  rintro ⟨e, rfl, -⟩
  exact nomatch hq

end Reservations
end ArchState
