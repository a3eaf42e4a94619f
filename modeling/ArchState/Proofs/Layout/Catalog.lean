import ArchState.Layout.Catalog
import Mathlib.Data.List.Nodup

/-! # Finding, adding and selecting layouts

The identifiers of a catalog are distinct. So a layout is found again by its own, and of two places
in a catalog that have the same identifier both are the same place. What a call adds or selects is
said once, and all else about it follows from that.
-/
namespace ArchState.Catalog
variable {c d : Catalog} {l k : Layout} {identifier : String}

theorem mem_identifiers_iff :
    identifier ∈ c.identifiers ↔ ∃ l ∈ c.layouts, l.identifier = identifier := List.mem_map

/-- Identifiers are distinct, so a layout of the catalog is known by its own. -/
theorem eq_of_identifier (hl : l ∈ c.layouts) (hk : k ∈ c.layouts)
    (h : l.identifier = k.identifier) : l = k :=
  List.inj_on_of_nodup_map c.nodup hl hk h

theorem find?_eq_some_iff :
    c.find? identifier = some l ↔ l ∈ c.layouts ∧ l.identifier = identifier := by
  constructor
  · intro h
    have hfound := List.find?_some h
    exact ⟨List.mem_of_find?_eq_some h, eq_of_beq hfound⟩
  · rintro ⟨hl, rfl⟩
    cases hfound : c.find? l.identifier with
    | none => exact absurd (mem_identifiers_iff.mpr ⟨l, hl, rfl⟩) (find?_eq_none_iff.mp hfound)
    | some k =>
      have hk : k ∈ c.layouts := List.mem_of_find?_eq_some hfound
      have hsame := List.find?_some hfound
      rw [eq_of_identifier hk hl (eq_of_beq hsame)]

theorem getElem?_selected (c : Catalog) : c.layouts[c.selected]? = some c.current :=
  List.getElem?_eq_getElem _

theorem current_mem (c : Catalog) : c.current ∈ c.layouts := List.get_mem _ _

/-- The selection of a catalog in which nothing was selected yet. -/
theorem current_of_selected (h : c.selected = 0) : c.current = initial.current := by
  have hget : ∀ i (hi : i < c.layouts.length), i = 0 →
      c.layouts.get ⟨i, hi⟩ = Layout.default := by
    rintro i hi rfl
    rfl
  exact hget c.selected c.selected_lt h

theorem register_of_mem (h : l.identifier ∈ c.identifiers) :
    c.register l = .error (.duplicate l.identifier) := by
  rw [register, dif_pos h]

theorem register_of_not_mem (h : l.identifier ∉ c.identifiers) : ∃ d, c.register l = .ok d := by
  rw [register, dif_neg h]
  exact ⟨_, rfl⟩

theorem added_of_register (h : c.register l = .ok d) :
    d.added = c.added ++ [l] ∧ d.selected = c.selected := by
  unfold register at h
  split at h
  · exact nomatch h
  · obtain rfl := Except.ok.inj h
    exact ⟨rfl, rfl⟩

theorem layouts_of_register (h : c.register l = .ok d) : d.layouts = c.layouts ++ [l] := by
  rw [layouts, layouts, (added_of_register h).1, List.append_assoc]

/-- Registering a layout selects none. -/
theorem current_of_register (h : c.register l = .ok d) : d.current = c.current := by
  have hsame : d.layouts[d.selected]? = c.layouts[c.selected]? := by
    rw [layouts_of_register h, (added_of_register h).2]
    exact List.getElem?_append_left c.selected_lt
  rw [getElem?_selected, getElem?_selected] at hsame
  exact Option.some.inj hsame

theorem place_unique {i j : Nat} (hi : c.layouts[i]? = some l) (hj : c.layouts[j]? = some k)
    (h : l.identifier = k.identifier) : i = j := by
  have hlt : i < (c.layouts.map Layout.identifier).length := by
    rw [List.length_map]
    exact (List.getElem?_eq_some_iff.mp hi).1
  refine (List.getElem?_inj hlt c.nodup).mp ?_
  rw [List.getElem?_map, List.getElem?_map]
  rw [hi, hj]
  exact congrArg some h

/-- Catalogs of the same layouts are the same if their selections have the same identifier. -/
theorem eq_of_current (hadded : d.added = c.added)
    (h : d.current.identifier = c.current.identifier) : d = c := by
  have hlayouts : d.layouts = c.layouts := by rw [layouts, layouts, hadded]
  have hselected : d.selected = c.selected :=
    place_unique (c := c) (hlayouts ▸ d.getElem?_selected) c.getElem?_selected h
  obtain ⟨_, _, _, _⟩ := c
  obtain ⟨_, _, _, _⟩ := d
  simp only at hadded hselected
  subst hadded hselected
  rfl

theorem select_of_not_mem (h : identifier ∉ c.identifiers) :
    c.select identifier = .error (.unknown identifier) := by
  unfold select
  split
  · rfl
  · rename_i i hi
    obtain ⟨hlt, hfound, -⟩ := List.findIdx?_eq_some_iff_getElem.mp hi
    exact absurd (mem_identifiers_iff.mpr ⟨_, List.getElem_mem hlt, eq_of_beq hfound⟩) h

/-- Identifiers tell whether another layout was selected, although places are compared. -/
theorem select_of_mem (h : identifier ∈ c.identifiers) :
    ∃ d, c.select identifier = .ok (identifier != c.current.identifier, d) ∧ d.added = c.added ∧
      d.current.identifier = identifier := by
  unfold select
  split
  · rename_i hnone
    obtain ⟨l, hl, rfl⟩ := mem_identifiers_iff.mp h
    have hother := List.findIdx?_eq_none_iff.mp hnone l hl
    simp at hother
  · rename_i i hi
    obtain ⟨hlt, hfound, -⟩ := List.findIdx?_eq_some_iff_getElem.mp hi
    have hplace : c.layouts[i]? = some c.layouts[i] := List.getElem?_eq_getElem hlt
    have hidentifier : c.layouts[i].identifier = identifier := eq_of_beq hfound
    have hchanged : (i != c.selected) = (identifier != c.current.identifier) := by
      rw [Bool.eq_iff_iff, bne_iff_ne, bne_iff_ne, not_iff_not]
      constructor
      · rintro rfl
        rw [← hidentifier]
        exact congrArg Layout.identifier (Option.some.inj (hplace.symm.trans c.getElem?_selected))
      · intro hsame
        exact place_unique hplace c.getElem?_selected (hidentifier.trans hsame)
    refine ⟨{ c with selected := i, selected_lt := hlt }, ?_, rfl, hidentifier⟩
    rw [hchanged]

/-- What is known of a selection that was made. -/
theorem select_eq_ok {changed : Bool} (h : c.select identifier = .ok (changed, d)) :
    changed = (identifier != c.current.identifier) ∧ d.added = c.added ∧
      d.current.identifier = identifier := by
  by_cases hmem : identifier ∈ c.identifiers
  · obtain ⟨d', hd', hadded, hidentifier⟩ := select_of_mem hmem
    obtain ⟨rfl, rfl⟩ := Prod.mk.inj (Except.ok.inj (h.symm.trans hd'))
    exact ⟨rfl, hadded, hidentifier⟩
  · cases (select_of_not_mem hmem).symm.trans h

theorem added_of_select {changed : Bool} (h : c.select identifier = .ok (changed, d)) :
    d.added = c.added := (select_eq_ok h).2.1

/-- The layout that is selected has the identifier that was asked for. -/
theorem identifier_of_select {changed : Bool} (h : c.select identifier = .ok (changed, d)) :
    d.current.identifier = identifier := (select_eq_ok h).2.2

/-- What was selected before is selected again when nothing changes. -/
theorem eq_of_select_false (h : c.select identifier = .ok (false, d)) : d = c := by
  obtain ⟨hchanged, hadded, hidentifier⟩ := select_eq_ok h
  have hsame : identifier = c.current.identifier := by simpa using hchanged.symm
  exact eq_of_current hadded (hidentifier.trans hsame)

theorem find?_of_select {changed : Bool} (h : c.select identifier = .ok (changed, d)) :
    c.find? identifier = some d.current := by
  have hlayouts : d.layouts = c.layouts := by rw [layouts, layouts, added_of_select h]
  exact find?_eq_some_iff.mpr ⟨hlayouts ▸ d.current_mem, identifier_of_select h⟩

/-- Two catalogs of the same layouts select the same layout for an identifier. -/
theorem select_of_added {e : Catalog} {changed : Bool} (h : c.added = d.added)
    (hs : c.select identifier = .ok (changed, e)) :
    ∃ changed' e', d.select identifier = .ok (changed', e') ∧ e'.current = e.current := by
  have hlayouts : d.layouts = c.layouts := by rw [layouts, layouts, h]
  obtain ⟨hmem, hidentifier⟩ := find?_eq_some_iff.mp (find?_of_select hs)
  obtain ⟨e', he', -, -⟩ := select_of_mem (c := d)
    (mem_identifiers_iff.mpr ⟨e.current, hlayouts ▸ hmem, hidentifier⟩)
  obtain ⟨hmem', hidentifier'⟩ := find?_eq_some_iff.mp (find?_of_select he')
  exact ⟨_, e', he', eq_of_identifier (c := d) hmem' (hlayouts ▸ hmem)
    (hidentifier'.trans hidentifier.symm)⟩

/-- The identifier of the selected layout selects this layout again. -/
theorem select_current (c : Catalog) : c.select c.current.identifier = .ok (false, c) := by
  obtain ⟨d, hd, hadded, hidentifier⟩ :=
    select_of_mem (mem_identifiers_iff.mpr ⟨c.current, c.current_mem, rfl⟩)
  rw [bne_self_eq_false] at hd
  rw [hd, eq_of_current hadded hidentifier]

end ArchState.Catalog
