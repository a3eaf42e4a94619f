import ArchState.Proofs.Layout.Catalog
import ArchState.Settings.Basic

/-! # Runs of catalog requests

Whoever uses a catalog speaks of layouts by their identifiers, while the catalog itself selects a
place of its list. Beside the catalog stands its view, which knows only a list and an identifier.
Both give the same answers along every run, since no identifier is ever listed twice.
-/
namespace ArchState

inductive CatalogRequest where
  | register (l : Layout)
  /-- Registers the layout that is read from a text. -/
  | load (json : String)
  | select (identifier : String)

inductive CatalogAnswer where
  | listed (l : Layout)
  /-- Whether another layout was selected before. -/
  | selected (changed : Bool)

/-- A list of layouts and the identifier of the selected one. -/
structure CatalogView where
  layouts : List Layout
  current : String

namespace CatalogView

def initial : CatalogView := ⟨Layout.builtin, "Default"⟩

def identifiers (v : CatalogView) : List String := v.layouts.map Layout.identifier

def register (v : CatalogView) (l : Layout) : Except SetupError CatalogAnswer × CatalogView :=
  if l.identifier ∈ v.identifiers then (.error (.layout (.duplicate l.identifier)), v)
  else (.ok (.listed l), { v with layouts := v.layouts ++ [l] })

def serve (v : CatalogView) : CatalogRequest → Except SetupError CatalogAnswer × CatalogView
  | .register l => v.register l
  | .load json =>
    match Layout.ofJson json with
    | .ok l => v.register l
    | .error e => (.error e, v)
  | .select identifier =>
    if identifier ∈ v.identifiers then
      (.ok (.selected (identifier != v.current)), { v with current := identifier })
    else (.error (.layout (.unknown identifier)), v)

def run (v : CatalogView) (requests : List CatalogRequest) : CatalogView :=
  requests.foldl (fun v q => (v.serve q).2) v

def answers (v : CatalogView) : List CatalogRequest → List (Except SetupError CatalogAnswer)
  | [] => []
  | q :: requests => (v.serve q).1 :: answers (v.serve q).2 requests

end CatalogView

namespace Catalog
variable {c d : Catalog} {l : Layout} {identifier : String}

/-- The answer to a request and the catalog after it; a request that is refused leaves it as it is.
-/
def serve (c : Catalog) : CatalogRequest → Except SetupError CatalogAnswer × Catalog
  | .register l =>
    match c.register l with
    | .ok d => (.ok (.listed l), d)
    | .error e => (.error (.layout e), c)
  | .load json =>
    match c.registerJson json with
    | .ok (l, d) => (.ok (.listed l), d)
    | .error e => (.error e, c)
  | .select identifier =>
    match c.select identifier with
    | .ok (changed, d) => (.ok (.selected changed), d)
    | .error e => (.error (.layout e), c)

def run (c : Catalog) (requests : List CatalogRequest) : Catalog :=
  requests.foldl (fun c q => (c.serve q).2) c

def answers (c : Catalog) : List CatalogRequest → List (Except SetupError CatalogAnswer)
  | [] => []
  | q :: requests => (c.serve q).1 :: answers (c.serve q).2 requests

def view (c : Catalog) : CatalogView := ⟨c.layouts, c.current.identifier⟩

theorem serve_register_of_mem (h : l.identifier ∈ c.identifiers) :
    c.serve (.register l) = (.error (.layout (.duplicate l.identifier)), c) := by
  simp only [serve, register_of_mem h]

theorem serve_register_of_ok (h : c.register l = .ok d) :
    c.serve (.register l) = (.ok (.listed l), d) := by
  simp only [serve, h]

/-- A text is served like the layout that is read from it. -/
theorem serve_load_of_ok {json : String} (h : Layout.ofJson json = .ok l) :
    c.serve (.load json) = c.serve (.register l) := by
  have hload : c.registerJson json =
      ((c.register l).mapError .layout).bind fun d => .ok (l, d) := by
    rw [registerJson, h]
    rfl
  simp only [serve, hload]
  cases c.register l <;> rfl

theorem serve_load_of_error {json : String} {e : SetupError} (h : Layout.ofJson json = .error e) :
    c.serve (.load json) = (.error e, c) := by
  have hload : c.registerJson json = .error e := by
    rw [registerJson, h]
    rfl
  simp only [serve, hload]

theorem serve_select_of_mem (h : identifier ∈ c.identifiers) :
    ∃ d, c.serve (.select identifier) = (.ok (.selected (identifier != c.current.identifier)), d) ∧
      d.layouts = c.layouts ∧ d.current.identifier = identifier := by
  obtain ⟨d, hd, hadded, hidentifier⟩ := select_of_mem h
  refine ⟨d, by simp only [serve, hd], ?_, hidentifier⟩
  rw [layouts, layouts, hadded]

theorem serve_select_of_not_mem (h : identifier ∉ c.identifiers) :
    c.serve (.select identifier) = (.error (.layout (.unknown identifier)), c) := by
  simp only [serve, select_of_not_mem h]

/-- What a request comes to: it is refused, it adds a layout at the end, or it selects one. The view
is served in the same way. -/
inductive Serves (c : Catalog) (q : CatalogRequest) : Prop
  | refused (e : SetupError) : c.serve q = (.error e, c) → c.view.serve q = (.error e, c.view) →
      Serves c q
  | listed (l : Layout) (d : Catalog) : c.serve q = (.ok (.listed l), d) →
      c.view.serve q = (.ok (.listed l), { c.view with layouts := c.layouts ++ [l] }) →
      d.layouts = c.layouts ++ [l] → d.selected = c.selected → d.current = c.current → Serves c q
  | selected (identifier : String) (d : Catalog) : q = .select identifier →
      c.serve q = (.ok (.selected (identifier != c.current.identifier)), d) →
      c.view.serve q = (.ok (.selected (identifier != c.current.identifier)),
        { c.view with current := identifier }) →
      d.layouts = c.layouts → d.current.identifier = identifier → Serves c q

theorem serves_register (c : Catalog) (l : Layout) : Serves c (.register l) := by
  by_cases h : l.identifier ∈ c.identifiers
  · exact .refused _ (serve_register_of_mem h) (if_pos h)
  · obtain ⟨d, hd⟩ := register_of_not_mem h
    exact .listed l d (serve_register_of_ok hd) (if_neg h) (layouts_of_register hd)
      (added_of_register hd).2 (current_of_register hd)

theorem serves (c : Catalog) (q : CatalogRequest) : Serves c q := by
  cases q with
  | register l => exact serves_register c l
  | load json =>
    cases h : Layout.ofJson json with
    | ok l =>
      have hview : c.view.serve (.load json) = c.view.serve (.register l) := by
        simp only [CatalogView.serve, h]
      have hserve := serve_load_of_ok (c := c) h
      cases serves_register c l with
      | refused e hc hv => exact .refused e (hserve.trans hc) (hview.trans hv)
      | listed l d hc hv hlayouts hselected hcurrent =>
        exact .listed l d (hserve.trans hc) (hview.trans hv) hlayouts hselected hcurrent
      | selected identifier d hq => cases hq
    | error e =>
      refine .refused e (serve_load_of_error h) ?_
      simp only [CatalogView.serve, h]
  | select identifier =>
    by_cases h : identifier ∈ c.identifiers
    · obtain ⟨d, hd, hlayouts, hidentifier⟩ := serve_select_of_mem h
      exact .selected identifier d rfl hd (if_pos h) hlayouts hidentifier
    · exact .refused _ (serve_select_of_not_mem h) (if_neg h)

theorem serve_view (c : Catalog) (q : CatalogRequest) :
    c.view.serve q = ((c.serve q).1, (c.serve q).2.view) := by
  cases c.serves q with
  | refused e hc hv => rw [hc, hv]
  | listed l d hc hv hlayouts _ hcurrent =>
    rw [hc, hv]
    simp only [view, hlayouts, hcurrent]
  | selected identifier d _ hc hv hlayouts hidentifier =>
    rw [hc, hv]
    simp only [view, hlayouts, hidentifier]

/-- The layout that a request has added, read off its answer. -/
def added? : Except SetupError CatalogAnswer → Option Layout
  | .ok (.listed l) => some l
  | _ => none

theorem layouts_serve (c : Catalog) (q : CatalogRequest) :
    (c.serve q).2.layouts = c.layouts ++ (added? (c.serve q).1).toList := by
  cases c.serves q with
  | refused e hc =>
    rw [hc]
    exact (List.append_nil _).symm
  | listed l d hc _ hlayouts =>
    rw [hc]
    exact hlayouts
  | selected identifier d _ hc _ hlayouts =>
    rw [hc]
    exact hlayouts.trans (List.append_nil _).symm

theorem serve_of_error {q : CatalogRequest} {e : SetupError} (h : (c.serve q).1 = .error e) :
    (c.serve q).2 = c := by
  cases c.serves q with
  | refused e hc => rw [hc]
  | listed l d hc =>
    rw [hc] at h
    cases h
  | selected identifier d _ hc =>
    rw [hc] at h
    cases h

/-- Only a request to select changes the selection. -/
theorem selection_serve {q : CatalogRequest} (h : ∀ identifier, q ≠ .select identifier) :
    (c.serve q).2.selected = c.selected ∧ (c.serve q).2.current = c.current := by
  cases c.serves q with
  | refused e hc =>
    rw [hc]
    exact ⟨rfl, rfl⟩
  | listed l d hc _ _ hselected hcurrent =>
    rw [hc]
    exact ⟨hselected, hcurrent⟩
  | selected identifier d hq => exact absurd hq (h identifier)

theorem run_view (c : Catalog) (requests : List CatalogRequest) :
    c.answers requests = c.view.answers requests ∧
      (c.run requests).view = c.view.run requests := by
  induction requests generalizing c with
  | nil => exact ⟨rfl, rfl⟩
  | cons q requests ih =>
    obtain ⟨hanswers, hrun⟩ := ih (c.serve q).2
    have hview := c.serve_view q
    constructor
    · rw [answers, CatalogView.answers, hview, hanswers]
    · have hstep : c.view.run (q :: requests) = (c.view.serve q).2.run requests := rfl
      rw [hstep, hview]
      exact hrun

theorem layouts_run (c : Catalog) (requests : List CatalogRequest) :
    (c.run requests).layouts = c.layouts ++ (c.answers requests).filterMap added? := by
  induction requests generalizing c with
  | nil => exact (List.append_nil _).symm
  | cons q requests ih =>
    have hstep : c.run (q :: requests) = (c.serve q).2.run requests := rfl
    rw [hstep, ih, layouts_serve, answers, List.filterMap_cons, List.append_assoc]
    cases added? (c.serve q).1 <;> rfl

/-- The answer to a selection is decided by identifiers, although places are compared. -/
theorem select_answers (c : Catalog) (identifier : String) :
    ((c.serve (.select identifier)).1 = .ok (.selected true) ↔
      identifier ∈ c.identifiers ∧ identifier ≠ c.current.identifier) ∧
    ((c.serve (.select identifier)).1 = .ok (.selected false) ↔
      identifier = c.current.identifier) ∧
    ∀ e, (c.serve (.select identifier)).1 = .error e ↔
      identifier ∉ c.identifiers ∧ e = .layout (.unknown identifier) := by
  by_cases h : identifier ∈ c.identifiers
  · obtain ⟨d, hd, -⟩ := serve_select_of_mem h
    rw [hd]
    refine ⟨?_, ?_, fun e => ?_⟩
    · simp only [Except.ok.injEq, CatalogAnswer.selected.injEq, bne_iff_ne, h, true_and]
    · simp only [Except.ok.injEq, CatalogAnswer.selected.injEq, bne_eq_false_iff_eq]
    · simp only [reduceCtorEq, h, not_true_eq_false, false_and]
  · have hother : identifier ≠ c.current.identifier := by
      rintro rfl
      exact h (mem_identifiers_iff.mpr ⟨c.current, c.current_mem, rfl⟩)
    rw [serve_select_of_not_mem h]
    refine ⟨?_, ?_, fun e => ?_⟩
    · simp only [reduceCtorEq, h, false_and]
    · simp only [reduceCtorEq, hother]
    · simp only [Except.error.injEq, h, not_false_eq_true, true_and]
      exact eq_comm

/-- A catalog answers like a list of layouts with the identifier of the selected one, along every
run. Its identifiers are distinct; the built-in layouts are followed by those that were registered,
in this order, and none is taken away later. The place that is selected is one of the list, and the
first layout is the default one. A layout is found under its identifier, and another one is selected
if it is listed and has another identifier than the selected one. A request that is refused changes
nothing, and none but a request to select changes the selection. -/
theorem catalog_consistent_along_run (requests : List CatalogRequest) :
    let c := initial.run requests
    (initial.answers requests = CatalogView.initial.answers requests ∧
      c.view = CatalogView.initial.run requests) ∧
    c.identifiers.Nodup ∧
    c.layouts = Layout.builtin ++ (initial.answers requests).filterMap added? ∧
    (∀ later, c.layouts <+: (c.run later).layouts) ∧
    c.selected < c.layouts.length ∧ c.layouts[c.selected]? = some c.current ∧
    c.layouts[0]? = some Layout.default ∧
    (∀ identifier l, c.find? identifier = some l ↔ l ∈ c.layouts ∧ l.identifier = identifier) ∧
    (∀ identifier,
      ((c.serve (.select identifier)).1 = .ok (.selected true) ↔
        identifier ∈ c.identifiers ∧ identifier ≠ c.current.identifier) ∧
      ((c.serve (.select identifier)).1 = .ok (.selected false) ↔
        identifier = c.current.identifier) ∧
      ∀ e, (c.serve (.select identifier)).1 = .error e ↔
        identifier ∉ c.identifiers ∧ e = .layout (.unknown identifier)) ∧
    (∀ q e, (c.serve q).1 = .error e → (c.serve q).2 = c) ∧
    ∀ q, (∀ identifier, q ≠ .select identifier) →
      (c.serve q).2.selected = c.selected ∧ (c.serve q).2.current = c.current := by
  intro c
  have hlayouts : c.layouts = Layout.builtin ++ (initial.answers requests).filterMap added? :=
    layouts_run initial requests
  exact ⟨initial.run_view requests, c.nodup, hlayouts, fun later => ⟨_, (c.layouts_run later).symm⟩,
    c.selected_lt, c.getElem?_selected, by rw [hlayouts]; rfl, fun _ _ => find?_eq_some_iff,
    c.select_answers, fun _ _ => serve_of_error, fun _ => selection_serve⟩

/-- A layout that was added can be selected. After that its identifier is refused, and a text that
is loaded, whatever it says, leaves it selected. -/
theorem added_layout_stays_selected (json : String) :
    let other := { Layout.default with identifier := "Other" }
    let c := initial.run [.register other, .select "Other"]
    c.layouts = Layout.builtin ++ [other] ∧ c.current.identifier = "Other" ∧
      (c.serve (.register other)).1 = .error (.layout (.duplicate "Other")) ∧
      (c.serve (.register other)).2 = c ∧ (c.serve (.load json)).2.current = c.current := by
  intro other c
  obtain ⟨⟨-, hview⟩, -, -, -, -, -, -, -, -, hrefused, hkept⟩ :=
    catalog_consistent_along_run [.register other, .select "Other"]
  have hlayouts : c.layouts = Layout.builtin ++ [other] := congrArg CatalogView.layouts hview
  have hmem : other.identifier ∈ c.identifiers :=
    mem_identifiers_iff.mpr ⟨other, hlayouts ▸ List.mem_append_right _ List.mem_cons_self, rfl⟩
  have hduplicate : (c.serve (.register other)).1 = .error (.layout (.duplicate "Other")) := by
    rw [serve_register_of_mem hmem]
  exact ⟨hlayouts, congrArg CatalogView.current hview, hduplicate, hrefused _ _ hduplicate,
    (hkept (.load json) nofun).2⟩

end Catalog
end ArchState
