import ArchState.Access

/-! # Rosters of observers

Observers join whatever can be watched and leave it again. Who is told of something is determined
by what happened so far: the handles that live, in the order in which they joined.
-/
namespace ArchState

/-- What happens to the observers of one thing. -/
inductive RosterEvent where
  | joined (id : ObserverId)
  | left (id : ObserverId)
  | allLeft
  deriving DecidableEq, Repr

namespace RosterEvent

def removes (id : ObserverId) : RosterEvent → Bool
  | joined _ => false
  | left old => old == id
  | allLeft => true

/-- The handles that live after some events, in the order in which they joined: those that no later
event removes. -/
def living : List RosterEvent → List ObserverId
  | [] => []
  | joined id :: later => if later.any (removes id) then living later else id :: living later
  | _ :: later => living later

/-- The handles that live once more has happened to them. -/
def apply (ids : List ObserverId) : RosterEvent → List ObserverId
  | joined id => ids ++ [id]
  | left id => ids.filter (· != id)
  | allLeft => []

/-- All handles that joined, in this order. -/
def joins : List RosterEvent → List ObserverId
  | [] => []
  | joined id :: later => id :: joins later
  | _ :: later => joins later

variable {events : List RosterEvent} {id : ObserverId}

theorem living_concat (events : List RosterEvent) (e : RosterEvent) :
    living (events ++ [e]) = (living events).filter (fun id => !e.removes id) ++ living [e] := by
  induction events with
  | nil => rfl
  | cons first later ih =>
    cases first with
    | joined id =>
      rw [List.cons_append, living, living, List.any_append, ih]
      cases hlater : later.any (removes id) with
      | true => simp
      | false => cases he : e.removes id <;> simp [he]
    | left id => exact ih
    | allLeft => exact ih

@[simp] theorem living_joined (events : List RosterEvent) (id : ObserverId) :
    living (events ++ [joined id]) = living events ++ [id] := by
  rw [living_concat]
  simp [removes, living]

@[simp] theorem living_left (events : List RosterEvent) (id : ObserverId) :
    living (events ++ [left id]) = (living events).filter (· != id) := by
  rw [living_concat]
  simp only [removes, living, List.append_nil]
  exact List.filter_congr fun old _ => by rw [bne, BEq.comm]

@[simp] theorem living_allLeft (events : List RosterEvent) :
    living (events ++ [allLeft]) = [] := by
  rw [living_concat]
  simp [removes, living]

theorem living_append (events more : List RosterEvent) :
    living (events ++ more) = more.foldl apply (living events) := by
  induction more generalizing events with
  | nil => rw [List.append_nil, List.foldl_nil]
  | cons e more ih =>
    rw [List.append_cons, ih, List.foldl_cons]
    cases e <;> simp [apply]

theorem living_eq_foldl (events : List RosterEvent) : living events = events.foldl apply [] :=
  living_append [] events

theorem living_sublist_joins (events : List RosterEvent) :
    (living events).Sublist (joins events) := by
  induction events with
  | nil => exact .slnil
  | cons first later ih =>
    cases first with
    | joined id =>
      rw [living, joins]
      split
      · exact ih.cons id
      · exact ih.cons_cons id
    | left id => exact ih
    | allLeft => exact ih

end RosterEvent
end ArchState
