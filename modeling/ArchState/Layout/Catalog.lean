import ArchState.Layout.Builtin

/-! # Layout catalogs

A catalog lists layouts under distinct identifiers, the built-in ones first, and has one of
them selected. Layouts are added at the end and never change.
-/
namespace ArchState

structure Catalog where
  /-- The layouts after the built-in ones, in the order in which they were added. -/
  added : List Layout
  selected : Nat
  nodup : ((Layout.builtin ++ added).map Layout.identifier).Nodup
  selected_lt : selected < (Layout.builtin ++ added).length

namespace Catalog

def layouts (c : Catalog) : List Layout := Layout.builtin ++ c.added

def initial : Catalog where
  added := []
  selected := 0
  nodup := by decide
  selected_lt := by decide

def identifiers (c : Catalog) : List String := c.layouts.map Layout.identifier

def find? (c : Catalog) (identifier : String) : Option Layout :=
  c.layouts.find? (·.identifier == identifier)

def current (c : Catalog) : Layout := c.layouts.get ⟨c.selected, c.selected_lt⟩

theorem find?_eq_none_iff {c : Catalog} {identifier : String} :
    c.find? identifier = none ↔ identifier ∉ c.identifiers := by
  simp [find?, identifiers]

def register (c : Catalog) (l : Layout) : Except LayoutError Catalog :=
  if h : l.identifier ∈ c.identifiers then .error (.duplicate l.identifier)
  else .ok {
    added := c.added ++ [l]
    selected := c.selected
    nodup := by
      rw [← List.append_assoc, List.map_append, List.nodup_append]
      refine ⟨c.nodup, by simp, ?_⟩
      rintro a ha b hb rfl
      rw [List.map_singleton, List.mem_singleton] at hb
      subst hb
      exact h ha
    selected_lt := by
      have := c.selected_lt
      simp only [List.length_append] at *
      omega }

/-- Selects the layout of this identifier and tells whether another one was selected. -/
def select (c : Catalog) (identifier : String) : Except LayoutError (Bool × Catalog) :=
  match h : c.layouts.findIdx? (·.identifier == identifier) with
  | none => .error (.unknown identifier)
  | some i =>
    .ok (i != c.selected,
      { c with selected := i, selected_lt := (List.findIdx?_eq_some_iff_findIdx_eq.mp h).1 })

end Catalog
end ArchState
