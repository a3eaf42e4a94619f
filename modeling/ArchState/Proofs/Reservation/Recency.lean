import Mathlib.Data.List.Perm.Subperm
import ArchState.Reservation.Table

/-! # Recency of reservations

The table of a hart is a queue: its entries stand in the order in which they were last reserved.
An entry leaves the queue when a request takes it away, or when eight others have been reserved
after it, for then it is the oldest of a full table. An entry that is reserved again only moves.
-/
namespace ArchState

/-- The requests to the table of one hart. Addresses need not be aligned. -/
inductive TableRequest where
  | reserve (e : Reservation)
  | unreserve (a : UInt32) (w : ReservationWidth)
  | reset
  deriving DecidableEq, Repr

namespace TableRequest

/-- Whether a request takes an entry away: every reset does, and a conditional store does if the
entry counts for it. -/
def removes (e : Reservation) : TableRequest → Bool
  | reserve _ => false
  | unreserve a w => e.covers a w
  | reset => true

/-- Whether `f` has been reserved since `e` was reserved for the last time. -/
def Newer (history : List TableRequest) (e f : Reservation) : Prop :=
  ∃ before later, history = before ++ reserve f :: later ∧
    reserve e ∈ before ∧ reserve e ∉ reserve f :: later

variable {history : List TableRequest} {q : TableRequest} {e f : Reservation}

theorem Newer.concat (h : Newer history e f) (hq : q ≠ reserve e) :
    Newer (history ++ [q]) e f := by
  obtain ⟨before, later, rfl, hbefore, hlater⟩ := h
  refine ⟨before, later ++ [q], by simp, hbefore, ?_⟩
  simp only [List.mem_cons, List.mem_append, not_or] at hlater ⊢
  exact ⟨hlater.1, hlater.2, hq.symm, List.not_mem_nil⟩

theorem newer_reserve (h : reserve e ∈ history) (hne : e ≠ f) :
    Newer (history ++ [reserve f]) e f :=
  ⟨history, [], rfl, h, by simpa using hne⟩

end TableRequest

namespace ReservationTable
open TableRequest (Newer)
variable {t : ReservationTable} {e f : Reservation} {history : List TableRequest}

def after (t : ReservationTable) : TableRequest → ReservationTable
  | .reserve e => t.reserve e.address e.width
  | .unreserve a w => t.unreserve a w
  | .reset => .empty

def run (t : ReservationTable) (requests : List TableRequest) : ReservationTable :=
  requests.foldl after t

@[simp] theorem run_nil (t : ReservationTable) : t.run [] = t := rfl

@[simp] theorem run_cons (t : ReservationTable) (q : TableRequest)
    (requests : List TableRequest) : t.run (q :: requests) = (t.after q).run requests := rfl

theorem entries_reserve (t : ReservationTable) (e : Reservation) :
    (t.after (.reserve e)).entries = kept t.entries e ++ [e] := rfl

theorem filter_ne_of_not_mem (h : e ∉ t.entries) : t.entries.filter (· != e) = t.entries := by
  rw [List.filter_eq_self]
  intro f hf
  simpa using fun hfe : f = e => h (hfe ▸ hf)

/-- An entry that is held leaves room for seven others. -/
theorem length_filter_ne_lt (h : e ∈ t.entries) :
    (t.entries.filter (· != e)).length < reservationCapacity := by
  refine Nat.lt_of_lt_of_le ?_ t.length_le
  rw [List.length_filter_lt_length_iff_exists]
  exact ⟨e, h, by simp⟩

/-- What is kept are all other entries, but not the oldest of eight. -/
theorem mem_kept_iff (t : ReservationTable) (e f : Reservation) :
    f ∈ kept t.entries e ↔ (f ∈ t.entries ∧ f ≠ e) ∧
      ¬ ((t.entries.filter (· != e)).length = reservationCapacity ∧
        t.entries.head? = some f) := by
  have hothers : f ∈ t.entries.filter (· != e) ↔ f ∈ t.entries ∧ f ≠ e := by simp
  by_cases hfull : (t.entries.filter (· != e)).length = reservationCapacity
  · have he : e ∉ t.entries := fun h => Nat.ne_of_lt (length_filter_ne_lt h) hfull
    have hnodup := t.nodup
    rw [filter_ne_of_not_mem he] at hfull
    rw [kept, filter_ne_of_not_mem he, if_pos hfull]
    cases hentries : t.entries with
    | nil => simp
    | cons oldest rest =>
      rw [hentries] at hnodup he hfull
      have holdest := (List.nodup_cons.mp hnodup).1
      rw [List.tail_cons, List.head?_cons, List.mem_cons, Option.some.injEq]
      constructor
      · intro hf
        exact ⟨⟨.inr hf, fun hfe => he (hfe ▸ List.mem_cons_of_mem _ hf)⟩,
          fun h => holdest (h.2 ▸ hf)⟩
      · rintro ⟨⟨rfl | hf, -⟩, hnot⟩
        · exact absurd ⟨hfull, rfl⟩ hnot
        · exact hf
  · rw [kept, if_neg hfull, hothers]
    exact ⟨fun h => ⟨h, fun hn => hfull hn.1⟩, fun h => h.1⟩

theorem mem_reserve_iff (t : ReservationTable) (e f : Reservation) :
    f ∈ (t.after (.reserve e)).entries ↔ f = e ∨ f ∈ t.entries ∧
      ¬ ((t.entries.filter (· != e)).length = reservationCapacity ∧
        t.entries.head? = some f) := by
  rw [entries_reserve, List.mem_append, List.mem_singleton, mem_kept_iff]
  by_cases hfe : f = e <;> simp [hfe]

theorem perm_reserve_of_mem (h : e ∈ t.entries) :
    (t.after (.reserve e)).entries.Perm t.entries := by
  have hkept : kept t.entries e = t.entries.erase e := by
    rw [kept, if_neg (Nat.ne_of_lt (length_filter_ne_lt h)), t.nodup.erase_eq_filter]
  rw [entries_reserve, hkept]
  exact (List.perm_append_singleton e _).trans (List.perm_cons_erase h).symm

/-- The entries of a table were reserved in a history, and stand in the order of their last
reservations. -/
structure Ordered (t : ReservationTable) (history : List TableRequest) : Prop where
  reserved : ∀ e ∈ t.entries, .reserve e ∈ history
  newer : t.entries.Pairwise (Newer history)

theorem Ordered.sublist {u : ReservationTable} (h : t.Ordered history)
    (hu : u.entries.Sublist t.entries) : u.Ordered history :=
  ⟨fun e he => h.reserved e (hu.subset he), h.newer.sublist hu⟩

/-- A request that reserves nothing that is in the table makes no entry of it newer. -/
theorem Ordered.concat {q : TableRequest} (h : t.Ordered history)
    (hq : ∀ e ∈ t.entries, q ≠ .reserve e) : t.Ordered (history ++ [q]) where
  reserved e he := List.mem_append_left _ (h.reserved e he)
  newer := h.newer.imp_of_mem fun he _ hnewer => hnewer.concat (hq _ he)

theorem Ordered.after (h : t.Ordered history) (q : TableRequest) :
    (t.after q).Ordered (history ++ [q]) := by
  cases q with
  | reserve e =>
    have hkept := (kept_sublist t.entries e).trans List.filter_sublist
    have hne : ∀ f ∈ kept t.entries e, f ≠ e := fun f hf => ((mem_kept_iff t e f).mp hf).1.2
    constructor
    · intro f hf
      rw [entries_reserve, List.mem_append, List.mem_singleton] at hf
      rcases hf with hf | rfl
      · exact List.mem_append_left _ (h.reserved f (hkept.subset hf))
      · simp
    · rw [entries_reserve, List.pairwise_append]
      refine ⟨?_, List.pairwise_singleton _ _, ?_⟩
      · refine (h.newer.sublist hkept).imp_of_mem fun hf _ hnewer => hnewer.concat ?_
        simpa using (hne _ hf).symm
      · intro f hf g hg
        obtain rfl := List.mem_singleton.mp hg
        exact TableRequest.newer_reserve (h.reserved f (hkept.subset hf)) (hne f hf)
  | unreserve a w => exact (h.sublist List.filter_sublist).concat fun _ _ => nofun
  | reset => exact ⟨nofun, List.Pairwise.nil⟩

theorem Ordered.run (h : t.Ordered history) (requests : List TableRequest) :
    (t.run requests).Ordered (history ++ requests) := by
  induction requests generalizing t history with
  | nil => simpa using h
  | cons q requests ih => simpa using ih (h.after q)

theorem ordered_empty : empty.Ordered [] := ⟨nofun, List.Pairwise.nil⟩

/-- An entry is held, and every newer entry is among some others. -/
def HeldBefore (t : ReservationTable) (e : Reservation) (others : List Reservation) : Prop :=
  ∃ older newer, t.entries = older ++ e :: newer ∧ newer ⊆ others

theorem heldBefore_reserve (t : ReservationTable) (e : Reservation) (others : List Reservation) :
    (t.after (.reserve e)).HeldBefore e others :=
  ⟨kept t.entries e, [], rfl, List.nil_subset _⟩

theorem HeldBefore.mem {others : List Reservation} (h : t.HeldBefore e others) :
    e ∈ t.entries := by
  obtain ⟨older, newer, hentries, -⟩ := h
  simp [hentries]

/-- Fewer than eight others cannot push an entry out: when the table is full of other entries,
one of them is older. -/
theorem HeldBefore.after_reserve {others : List Reservation} (h : t.HeldBefore e others)
    (hfew : others.length < reservationCapacity) (hf : f ∈ others) (hne : f ≠ e) :
    (t.after (.reserve f)).HeldBefore e others := by
  obtain ⟨older, newer, hentries, hnewer⟩ := h
  have hnodup : (newer.filter (· != f)).Nodup := by
    have := t.nodup
    rw [hentries, List.nodup_append] at this
    exact (List.nodup_cons.mp this.2.1).2.filter _
  have hrest : newer.filter (· != f) ⊆ others := fun g hg => hnewer (List.mem_of_mem_filter hg)
  have hothers : t.entries.filter (· != f) =
      older.filter (· != f) ++ e :: newer.filter (· != f) := by
    rw [hentries, List.filter_append, List.filter_cons_of_pos (by simpa using hne.symm)]
  have hsub : newer.filter (· != f) ++ [f] ⊆ others := by simp [hrest, hf]
  by_cases hfull : (t.entries.filter (· != f)).length = reservationCapacity
  · cases holder : older.filter (· != f) with
    | nil =>
      -- then seven newer entries and `f` are eight others
      rw [hothers, holder, List.nil_append, List.length_cons] at hfull
      have hdistinct : (newer.filter (· != f) ++ [f]).Nodup := by
        rw [List.nodup_append]
        refine ⟨hnodup, by simp, ?_⟩
        rintro g hg g' hg' rfl
        obtain rfl := List.mem_singleton.mp hg'
        simp at hg
      have hle := (hdistinct.subperm hsub).length_le
      rw [List.length_append, List.length_singleton, hfull] at hle
      exact absurd hfew (Nat.not_lt.mpr hle)
    | cons oldest rest =>
      refine ⟨rest, newer.filter (· != f) ++ [f], ?_, hsub⟩
      rw [entries_reserve, kept, if_pos hfull, hothers, holder]
      simp
  · refine ⟨older.filter (· != f), newer.filter (· != f) ++ [f], ?_, hsub⟩
    rw [entries_reserve, kept, if_neg hfull, hothers]
    simp

theorem HeldBefore.after {others : List Reservation} {q : TableRequest}
    (h : t.HeldBefore e others) (hfew : others.length < reservationCapacity)
    (hremoves : q.removes e = false) (hreserves : ∀ f, q = .reserve f → f = e ∨ f ∈ others) :
    (t.after q).HeldBefore e others := by
  cases q with
  | reserve f =>
    by_cases hfe : f = e
    · subst hfe
      exact t.heldBefore_reserve f others
    · exact h.after_reserve hfew ((hreserves f rfl).resolve_left hfe) hfe
  | unreserve a w =>
    obtain ⟨older, newer, hentries, hnewer⟩ := h
    refine ⟨older.filter fun r => !r.covers a w, newer.filter fun r => !r.covers a w, ?_,
      fun g hg => hnewer (List.mem_of_mem_filter hg)⟩
    change t.entries.filter _ = _
    rw [hentries, List.filter_append, List.filter_cons_of_pos]
    rw [TableRequest.removes] at hremoves
    rw [hremoves, Bool.not_false]
  | reset => exact nomatch hremoves

theorem HeldBefore.run {others : List Reservation} {requests : List TableRequest}
    (h : t.HeldBefore e others) (hfew : others.length < reservationCapacity)
    (hall : ∀ q ∈ requests, q.removes e = false ∧ ∀ f, q = .reserve f → f = e ∨ f ∈ others) :
    (t.run requests).HeldBefore e others := by
  induction requests generalizing t with
  | nil => exact h
  | cons q requests ih =>
    obtain ⟨⟨hremoves, hreserves⟩, hrest⟩ := List.forall_mem_cons.mp hall
    exact ih (h.after hfew hremoves hreserves) hrest

/-- A table is a bounded queue of distinct entries in the order of their last reservations. A
reservation becomes the newest entry and drops another one only if eight others are held, which is
then the oldest of them. So it drops nothing if it is held already, and it is itself held until a
request takes it away or eight different others are reserved. -/
theorem recency_queue (history : List TableRequest) :
    let t := empty.run history
    t.entries.length ≤ 8 ∧ t.entries.Nodup ∧ t.entries.Pairwise (Newer history) ∧
    ∀ e, (t.after (.reserve e)).entries.getLast? = some e ∧
      (∀ f, f ∈ (t.after (.reserve e)).entries ↔ f = e ∨ f ∈ t.entries ∧
        ¬ ((t.entries.filter (· != e)).length = 8 ∧ t.entries.head? = some f)) ∧
      (e ∈ t.entries → (t.after (.reserve e)).entries.Perm t.entries) ∧
      ∀ (requests : List TableRequest) (others : List Reservation), others.length < 8 →
        (∀ q ∈ requests, q.removes e = false ∧ ∀ f, q = .reserve f → f = e ∨ f ∈ others) →
        e ∈ ((t.after (.reserve e)).run requests).entries := by
  intro t
  refine ⟨t.length_le, t.nodup, (ordered_empty.run history).newer, fun e => ⟨?_, ?_, ?_, ?_⟩⟩
  · rw [entries_reserve, List.getLast?_concat]
  · exact t.mem_reserve_iff e
  · exact perm_reserve_of_mem
  · intro requests others hfew hall
    exact ((t.heldBefore_reserve e others).run hfew hall).mem

/-- The oldest of eight reservations gives way to a new one, unless it is made again: then it is
held while seven others are reserved, and a conditional store for another one makes no difference.
-/
theorem reserved_again_outlives_seven :
    let reserved (n : Nat) : Reservation := ⟨UInt32.ofNat n, .word⟩
    let t := empty.run ((List.range 8).map fun n => .reserve (reserved n))
    let later := (List.range 7).map fun n => TableRequest.reserve (reserved (n + 8))
    reserved 0 ∉ (t.after (.reserve (reserved 8))).entries ∧
      (t.after (.reserve (reserved 0))).entries.Perm t.entries ∧
      reserved 0 ∈
        ((t.after (.reserve (reserved 0))).run (later ++ [.unreserve 1 .word])).entries := by
  intro reserved t later
  have hqueue := (recency_queue ((List.range 8).map fun n => .reserve (reserved n))).2.2.2
  obtain ⟨-, hmem, -⟩ := hqueue (reserved 8)
  obtain ⟨-, -, hperm, hheld⟩ := hqueue (reserved 0)
  refine ⟨?_, hperm (by decide), ?_⟩
  · rw [hmem]
    decide
  · refine hheld _ ((List.range 7).map fun n => reserved (n + 8)) (by decide) ?_
    simp only [later, List.mem_append, List.mem_map, List.mem_singleton]
    rintro q (⟨n, hn, rfl⟩ | rfl)
    · refine ⟨rfl, ?_⟩
      rintro f ⟨⟩
      exact .inr ⟨n, hn, rfl⟩
    · exact ⟨by decide, nofun⟩

end ReservationTable
end ArchState
