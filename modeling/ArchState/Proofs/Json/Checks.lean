import ArchState.Json.Record
import Mathlib.Data.List.Forall2

/-! # Checks while a text is read

A reader may check what it has read at once, in the middle of an array or of a record, or leave this
until the whole text has been read. On texts that are accepted this makes no difference, if nothing
that was read is lost in between.
-/
namespace ArchState

section
variable {ε α β : Type} {x : Except ε α} {b : β}

theorem bind_eq_ok_iff {f : α → Except ε β} : x >>= f = .ok b ↔ ∃ a, x = .ok a ∧ f a = .ok b := by
  constructor
  · cases x with
    | error e => exact nofun
    | ok a => exact fun h => ⟨a, rfl, h⟩
  · rintro ⟨a, rfl, h⟩
    exact h

end

namespace Json.Reader
variable {α β γ δ σ τ : Type} {A : α → β → Prop} {C : γ → δ → Prop} {S : σ → τ → Prop}
  {depth : Nat} {cs rest : List Char}

/-- Whether a reader reads `a` from `cs` and leaves `rest`. -/
def Reads (r : Reader α) (depth : Nat) (cs : List Char) (a : α) (rest : List Char) : Prop :=
  r depth cs = .ok (a, rest)

/-- Whether there is a text from which a reader reads `a`. -/
def Yields (r : Reader α) (a : α) : Prop := ∃ depth cs rest, Reads r depth cs a rest

/-- A reader `r` that checks what it reads reads what `q` reads without checks and is accepted:
`A a b` says that `a` is accepted as `b`. -/
def Checks (A : α → β → Prop) (q : Reader α) (r : Reader β) : Prop :=
  ∀ depth cs b rest, Reads r depth cs b rest ↔ ∃ a, Reads q depth cs a rest ∧ A a b

theorem Reads.yields {r : Reader α} {a : α} (h : Reads r depth cs a rest) : r.Yields a :=
  ⟨depth, cs, rest, h⟩

theorem not_reads_throw {e : Error} {a : α} : ¬ Reads (throw e : Reader α) depth cs a rest := nofun

theorem not_yields_throw {e : Error} {a : α} : ¬ Yields (throw e : Reader α) a := nofun

theorem reads_pure_iff {a b : α} : Reads (pure a) depth cs b rest ↔ b = a ∧ rest = cs := by
  rw [Reads, show (pure a : Reader α) depth cs = .ok (a, cs) from rfl]
  simp [eq_comm]

theorem reads_bind_iff {r : Reader α} {f : α → Reader β} {b : β} :
    Reads (r >>= f) depth cs b rest ↔
      ∃ a mid, Reads r depth cs a mid ∧ Reads (f a) depth mid b rest := by
  rw [Reads, show (r >>= f) depth cs = (r depth cs) >>= fun p => f p.1 depth p.2 from rfl]
  simp only [Reads]
  cases r depth cs with
  | error e => simp [bind, Except.bind]
  | ok p =>
    constructor
    · exact fun h => ⟨p.1, p.2, rfl, h⟩
    · rintro ⟨_, _, ⟨⟩, h⟩
      exact h

theorem eq_of_yields_pure {a b : α} (h : Yields (pure a) b) : b = a := by
  obtain ⟨depth, cs, rest, h⟩ := h
  exact (reads_pure_iff.mp h).1

theorem yields_bind {r : Reader α} {f : α → Reader β} {b : β} (h : Yields (r >>= f) b) :
    ∃ a, r.Yields a ∧ (f a).Yields b := by
  obtain ⟨depth, cs, rest, h⟩ := h
  obtain ⟨a, mid, ha, hb⟩ := reads_bind_iff.mp h
  exact ⟨a, ha.yields, hb.yields⟩

namespace Checks

theorem refl (q : Reader α) : Checks Eq q q := by simp [Checks]

theorem pure (hA : Relator.RightUnique A) {a : α} {b : β} (h : A a b) :
    Checks A (Pure.pure a) (Pure.pure b) := by
  intro depth cs b' rest
  simp only [reads_pure_iff]
  constructor
  · rintro ⟨rfl, rfl⟩
    exact ⟨a, ⟨rfl, rfl⟩, h⟩
  · rintro ⟨_, ⟨rfl, rfl⟩, hb⟩
    exact ⟨hA hb h, rfl⟩

theorem throw {e e' : Error} : Checks A (MonadExcept.throw e) (MonadExcept.throw e') := by
  intro depth cs b rest
  simp [not_reads_throw]

/-- What is read first and not accepted must not be accepted later either. -/
theorem bind {q : Reader α} {r : Reader β} {f : α → Reader γ} {g : β → Reader δ}
    (h : Checks A q r) (hnext : ∀ a b, q.Yields a → A a b → Checks C (f a) (g b))
    (hback : ∀ a c d, q.Yields a → (f a).Yields c → C c d → ∃ b, A a b) :
    Checks C (q >>= f) (r >>= g) := by
  intro depth cs d rest
  simp only [reads_bind_iff]
  constructor
  · rintro ⟨b, mid, hb, hd⟩
    obtain ⟨a, ha, hab⟩ := (h _ _ _ _).mp hb
    obtain ⟨c, hc, hcd⟩ := (hnext a b ha.yields hab _ _ _ _).mp hd
    exact ⟨c, ⟨a, mid, ha, hc⟩, hcd⟩
  · rintro ⟨c, ⟨a, mid, ha, hc⟩, hcd⟩
    obtain ⟨b, hab⟩ := hback a c d ha.yields hc.yields hcd
    exact ⟨b, mid, (h _ _ _ _).mpr ⟨a, ha, hab⟩,
      (hnext a b ha.yields hab _ _ _ _).mpr ⟨c, hc, hcd⟩⟩

theorem after (p : Reader α) {f : α → Reader γ} {g : α → Reader δ}
    (h : ∀ a, Checks C (f a) (g a)) : Checks C (p >>= f) (p >>= g) :=
  bind (refl p) (fun a _ _ hab => hab ▸ h a) fun a _ _ _ _ _ => ⟨a, rfl⟩

theorem nested {q : Reader α} {r : Reader β} (h : Checks A q r) :
    Checks A (Reader.nested q) (Reader.nested r) := by
  intro depth cs b rest
  simp only [Reads, Reader.nested]
  split
  · have hthrow : Checks A (MonadExcept.throw .malformed) (MonadExcept.throw .malformed) := throw
    exact hthrow depth cs b rest
  · exact h (depth - 1) cs b rest

theorem unexpected (expected : String) :
    Checks A (Reader.unexpected expected) (Reader.unexpected expected) :=
  after _ fun _ => throw

end Checks

theorem run_eq_ok_iff {r : Reader α} {s : String} {a : α} :
    r.run s = .ok a ↔ ∃ rest, r.Reads nesting s.toList a rest ∧ rest.all isSpace = true := by
  rw [run, bind_eq_ok_iff]
  constructor
  · rintro ⟨⟨b, rest⟩, hb, hrest⟩
    by_cases hspace : rest.all isSpace = true
    · cases (if_pos hspace).symm.trans hrest
      exact ⟨rest, hb, hspace⟩
    · cases (if_neg hspace).symm.trans hrest
  · rintro ⟨rest, ha, hspace⟩
    exact ⟨(a, rest), ha, if_pos hspace⟩

theorem Checks.run_eq_ok_iff {q : Reader α} {r : Reader β} (h : Checks A q r) {s : String} {b : β} :
    r.run s = .ok b ↔ ∃ a, q.run s = .ok a ∧ A a b := by
  simp only [Reader.run_eq_ok_iff]
  constructor
  · rintro ⟨rest, hb, hrest⟩
    obtain ⟨a, ha, hab⟩ := (h _ _ _ _).mp hb
    exact ⟨a, ⟨rest, ha, hrest⟩, hab⟩
  · rintro ⟨a, ⟨rest, ha, hrest⟩, hab⟩
    exact ⟨rest, (h _ _ _ _).mpr ⟨a, ha, hab⟩, hrest⟩

theorem reads_loop_succ_iff {round : σ → Reader (σ ⊕ α)} {fuel : Nat} {s : σ} {a : α} :
    Reads (loop round (fuel + 1) s) depth cs a rest ↔ Reads (round s) depth cs (.inr a) rest ∨
      ∃ s' mid, Reads (round s) depth cs (.inl s') mid ∧
        Reads (loop round fuel s') depth mid a rest := by
  rw [loop, reads_bind_iff]
  constructor
  · rintro ⟨s' | a', mid, hround, hrest⟩
    · exact .inr ⟨s', mid, hround, hrest⟩
    · obtain ⟨rfl, rfl⟩ := reads_pure_iff.mp hrest
      exact .inl hround
  · rintro (hround | ⟨s', mid, hround, hrest⟩)
    · exact ⟨_, _, hround, reads_pure_iff.mpr ⟨rfl, rfl⟩⟩
    · exact ⟨_, mid, hround, hrest⟩

/-- A state from which a loop comes to an accepted result is accepted, if this holds of each round.
-/
theorem accepted_of_yields_loop {q : σ → Reader (σ ⊕ γ)}
    (hback : ∀ s x y, (q s).Yields x → Sum.LiftRel S C x y → ∃ t, S s t) {fuel : Nat} {s : σ}
    {c : γ} {d : δ} (h : (loop q fuel s).Yields c) (hcd : C c d) : ∃ t, S s t := by
  induction fuel generalizing s with
  | zero => exact absurd h not_yields_throw
  | succ fuel ih =>
    obtain ⟨depth, cs, rest, hread⟩ := h
    rcases reads_loop_succ_iff.mp hread with hlast | ⟨s', mid, hstep, hrest⟩
    · exact hback s _ _ hlast.yields (.inr hcd)
    · obtain ⟨t', ht'⟩ := ih hrest.yields
      exact hback s _ _ hstep.yields (.inl ht')

/-- Checks in each round of a loop. -/
theorem Checks.loop {q : σ → Reader (σ ⊕ γ)} {r : τ → Reader (τ ⊕ δ)}
    (hround : ∀ s t, S s t → Checks (Sum.LiftRel S C) (q s) (r t))
    (hback : ∀ s x y, (q s).Yields x → Sum.LiftRel S C x y → ∃ t, S s t)
    {s : σ} {t : τ} (h : S s t) (fuel : Nat) :
    Checks C (Reader.loop q fuel s) (Reader.loop r fuel t) := by
  induction fuel generalizing s t with
  | zero => exact .throw
  | succ fuel ih =>
    intro depth cs d rest
    simp only [reads_loop_succ_iff]
    constructor
    · rintro (hlast | ⟨t', mid, hstep, hrest⟩)
      · obtain ⟨x, hx, hrel⟩ := (hround s t h _ _ _ _).mp hlast
        cases hrel with
        | inr hcd => exact ⟨_, .inl hx, hcd⟩
      · obtain ⟨x, hx, hrel⟩ := (hround s t h _ _ _ _).mp hstep
        cases hrel with
        | inl hst =>
          obtain ⟨c, hc, hcd⟩ := (ih hst _ _ _ _).mp hrest
          exact ⟨c, .inr ⟨_, mid, hx, hc⟩, hcd⟩
    · rintro ⟨c, hlast | ⟨s', mid, hstep, hrest⟩, hcd⟩
      · exact .inl ((hround s t h _ _ _ _).mpr ⟨_, hlast, .inr hcd⟩)
      · obtain ⟨t', hst⟩ := accepted_of_yields_loop hback hrest.yields hcd
        exact .inr ⟨t', mid, (hround s t h _ _ _ _).mpr ⟨_, hstep, .inl hst⟩,
          (ih hst _ _ _ _).mpr ⟨c, hrest, hcd⟩⟩

theorem Checks.iterate {q : σ → Reader (σ ⊕ γ)} {r : τ → Reader (τ ⊕ δ)}
    (hround : ∀ s t, S s t → Checks (Sum.LiftRel S C) (q s) (r t))
    (hback : ∀ s x y, (q s).Yields x → Sum.LiftRel S C x y → ∃ t, S s t)
    {s : σ} {t : τ} (h : S s t) : Checks C (Reader.iterate q s) (Reader.iterate r t) :=
  .after _ fun _ => .loop hround hback h _

theorem liftRel_rightUnique (hS : Relator.RightUnique S) (hC : Relator.RightUnique C) :
    Relator.RightUnique (Sum.LiftRel S C) := by
  rintro _ _ _ (h | h) (h' | h')
  · rw [hS h h']
  · rw [hC h h']

/-- Whether two entries of an object have the same key and values of which one is accepted as the
other. -/
def EntryRel (A : α → β → Prop) (p : String × α) (q : String × β) : Prop :=
  p.1 = q.1 ∧ A p.2 q.2

abbrev EntriesRel (A : α → β → Prop) : List (String × α) → List (String × β) → Prop :=
  List.Forall₂ (EntryRel A)

theorem entriesRel_rightUnique (hA : Relator.RightUnique A) :
    Relator.RightUnique (EntriesRel A) :=
  .forall₂ fun _ _ _ h h' => Prod.ext (h.1.symm.trans h'.1) (hA h.2 h'.2)

section
variable {ps : List (String × α)} {qs : List (String × β)}

theorem EntriesRel.keys (h : EntriesRel A ps qs) : ps.map Prod.fst = qs.map Prod.fst := by
  induction h with
  | nil => rfl
  | cons h _ ih => rw [List.map_cons, List.map_cons, ih, h.1]

theorem EntriesRel.swap (h : EntriesRel A ps qs) : EntriesRel (flip A) qs ps :=
  h.flip.imp fun _ _ h => ⟨h.1.symm, h.2⟩

theorem exists_entriesRel_iff : (∃ qs, EntriesRel A ps qs) ↔ ∀ p ∈ ps, ∃ b, A p.2 b := by
  constructor
  · rintro ⟨qs, h⟩
    induction h with
    | nil => simp
    | cons h _ ih => exact List.forall_mem_cons.mpr ⟨⟨_, h.2⟩, ih⟩
  · intro h
    induction ps with
    | nil => exact ⟨[], .nil⟩
    | cons p ps ih =>
      obtain ⟨⟨b, hb⟩, hrest⟩ := List.forall_mem_cons.mp h
      obtain ⟨qs, hqs⟩ := ih hrest
      exact ⟨(p.1, b) :: qs, .cons ⟨rfl, hb⟩ hqs⟩

end

/-- Checks of the values of an object. -/
theorem Checks.map (hA : Relator.RightUnique A) {q : Reader α} {r : Reader β}
    (h : Checks A q r) : Checks (EntriesRel A) (Reader.map q) (Reader.map r) := by
  have hunique := entriesRel_rightUnique hA
  have hresult := liftRel_rightUnique hunique hunique
  refine .after _ fun c => ?_
  split
  · refine .nested (.after _ fun _ =>
      .iterate (S := EntriesRel A) (fun done done' hdone => ?_) ?_ .nil)
    · rw [show done'.isEmpty = done.isEmpty by cases hdone <;> rfl]
      refine .after _ fun more => ?_
      cases more with
      | true =>
        refine .after _ fun key => .after _ fun _ => .bind h (fun a b _ hab => ?_) ?_
        · exact .pure hresult (.inl (.cons ⟨rfl, hab⟩ hdone))
        · intro a x y _ hx hxy
          obtain rfl := eq_of_yields_pure hx
          cases hxy with
          | inl hxy =>
            cases hxy with
            | cons hab _ => exact ⟨_, hab.2⟩
      | false =>
        exact .after _ fun _ => .pure hresult (.inr (List.forall₂_reverse_iff.mpr hdone))
    · intro done x y hx hxy
      obtain ⟨more, -, hx⟩ := yields_bind hx
      cases more with
      | true =>
        obtain ⟨key, -, hx⟩ := yields_bind hx
        obtain ⟨-, -, hx⟩ := yields_bind hx
        obtain ⟨a, -, hx⟩ := yields_bind hx
        obtain rfl := eq_of_yields_pure hx
        cases hxy with
        | inl hxy =>
          cases hxy with
          | cons _ hdone => exact ⟨_, hdone⟩
      | false =>
        obtain ⟨-, -, hx⟩ := yields_bind hx
        obtain rfl := eq_of_yields_pure hx
        cases hxy with
        | inr hxy => exact ⟨_, List.forall₂_reverse_iff.mp (by rwa [List.reverse_reverse])⟩
  · exact .unexpected _

/-- How the fields of two records go together: `r` checks what `q` reads, and what `q` reads into a
record without this field loses nothing. -/
structure FieldChecks (S : σ → τ → Prop) (q : Field σ) (r : Field τ) : Prop where
  name : q.name = r.name
  required : q.required = r.required
  isSet : ∀ s t, S s t → q.isSet s = r.isSet t
  read : ∀ s t, S s t → Checks S (q.read s) (r.read t)
  back : ∀ s s' t', q.isSet s = false → (q.read s).Yields s' → S s' t' → ∃ t, S s t

theorem exists_of_yields_update {item : Reader α} {update : α → σ} {s : σ}
    (h : Yields (do return update (← item)) s) : ∃ a, s = update a := by
  obtain ⟨a, -, h⟩ := yields_bind h
  exact ⟨a, eq_of_yields_pure h⟩

/-- Fields that read one value each. -/
theorem FieldChecks.update (hS : Relator.RightUnique S) {q : Reader α} {r : Reader β}
    (h : Checks A q r) {name : String} {required : Bool} {isSet : σ → Bool} {isSet' : τ → Bool}
    {update : σ → α → σ} {update' : τ → β → τ} (hset : ∀ s t, S s t → isSet s = isSet' t)
    (hupdate : ∀ s t a b, S s t → A a b → S (update s a) (update' t b))
    (hvalue : ∀ s a t', S (update s a) t' → ∃ b, A a b)
    (hback : ∀ s a t', isSet s = false → S (update s a) t' → ∃ t, S s t) :
    FieldChecks S ⟨name, required, isSet, fun s => do return update s (← q)⟩
      ⟨name, required, isSet', fun t => do return update' t (← r)⟩ where
  name := rfl
  required := rfl
  isSet := hset
  read s t hst := by
    refine .bind h (fun a b _ hab => .pure hS (hupdate s t a b hst hab)) ?_
    intro a s' t' _ hs' hst'
    obtain rfl := eq_of_yields_pure hs'
    exact hvalue s a t' hst'
  back s s' t' hunset hs' hst' := by
    obtain ⟨a, rfl⟩ := exists_of_yields_update hs'
    exact hback s a t' hunset hst'

/-- Reading one of some fields does not make another one set. -/
def Separate (fields : List (Field σ)) : Prop :=
  fields.Pairwise fun f g => ∀ s s', (f.read s).Yields s' → g.isSet s = false → g.isSet s' = false

section Records
variable {qs : List (Field σ)} {rs : List (Field τ)}

theorem find?_fieldChecks (hfields : List.Forall₂ (FieldChecks S) qs rs) (key : String) :
    (qs.find? (·.name == key) = none ∧ rs.find? (·.name == key) = none) ∨
      ∃ q r, qs.find? (·.name == key) = some q ∧ rs.find? (·.name == key) = some r ∧
        FieldChecks S q r := by
  induction hfields with
  | nil => exact .inl ⟨rfl, rfl⟩
  | cons hf _ ih =>
    simp only [List.find?_cons, hf.name]
    split
    · exact .inr ⟨_, _, rfl, rfl, hf⟩
    · exact ih

theorem findIdx?_fieldChecks (hfields : List.Forall₂ (FieldChecks S) qs rs) :
    qs.findIdx? (·.required) = rs.findIdx? (·.required) := by
  induction hfields with
  | nil => rfl
  | cons hf _ ih => simp only [List.findIdx?_cons, hf.required, ih]

theorem Yields.of_recordEntry {s : Bool × σ} {x : (Bool × σ) ⊕ σ}
    (h : (recordEntry qs s).Yields x) :
    (∃ key f s', qs.find? (·.name == key) = some f ∧ f.isSet s.2 = false ∧
        (f.read s.2).Yields s' ∧ x = .inl (false, s')) ∨ x = .inr s.2 := by
  obtain ⟨more, -, h⟩ := yields_bind h
  cases more with
  | true =>
    obtain ⟨key, -, h⟩ := yields_bind h
    cases hf : qs.find? (·.name == key) with
    | none =>
      rw [hf] at h
      exact absurd h not_yields_throw
    | some f =>
      rw [hf] at h
      simp only at h
      split at h
      · exact absurd h not_yields_throw
      · rename_i hset
        obtain ⟨-, -, h⟩ := yields_bind h
        obtain ⟨s', hs', h⟩ := yields_bind h
        exact .inl ⟨key, f, s', hf, by simpa using hset, hs', eq_of_yields_pure h⟩
  | false =>
    obtain ⟨-, -, h⟩ := yields_bind h
    exact .inr (eq_of_yields_pure h)

theorem Checks.recordEntry (hS : Relator.RightUnique S)
    (hfields : List.Forall₂ (FieldChecks S) qs rs) {s : Bool × σ} {t : Bool × τ}
    (h : s.1 = t.1 ∧ S s.2 t.2) :
    Checks (Sum.LiftRel (fun s t => s.1 = t.1 ∧ S s.2 t.2) S) (Reader.recordEntry qs s)
      (Reader.recordEntry rs t) := by
  obtain ⟨first, s⟩ := s
  obtain ⟨_, t⟩ := t
  obtain ⟨rfl, h⟩ := h
  have hresult : Relator.RightUnique
      (Sum.LiftRel (fun (s : Bool × σ) (t : Bool × τ) => s.1 = t.1 ∧ S s.2 t.2) S) :=
    liftRel_rightUnique (fun _ _ _ h h' => Prod.ext (h.1.symm.trans h'.1) (hS h.2 h'.2)) hS
  refine .after _ fun more => ?_
  cases more with
  | true =>
    refine .after _ fun key => ?_
    obtain ⟨hq, hr⟩ | ⟨q, r, hq, hr, hf⟩ := find?_fieldChecks hfields key
    · rw [hq, hr]
      exact .throw
    · simp only [hq, hr, hf.isSet _ _ h]
      split
      · exact .throw
      · refine .after _ fun _ => .bind (hf.read _ _ h) (fun a b _ hab => ?_) ?_
        · exact .pure hresult (.inl ⟨rfl, hab⟩)
        · intro a x y _ hx hxy
          obtain rfl := eq_of_yields_pure hx
          cases hxy with
          | inl hxy => exact ⟨_, hxy.2⟩
  | false => exact .after _ fun _ => .pure hresult (.inr h)

/-- Reading the rest of an array of fields that are not there yet loses nothing. -/
theorem accepted_of_yields_recordItems (hfields : List.Forall₂ (FieldChecks S) qs rs)
    (hsep : Separate qs) {expected : String} {size position : Nat} {s c : σ} {d : τ}
    (hunset : ∀ f ∈ qs, f.isSet s = false)
    (h : (recordItems expected size qs position s).Yields c) (hcd : S c d) : ∃ t, S s t := by
  -- from the end of the array backwards: the result is accepted, and each field loses nothing
  induction hfields generalizing s position with
  | nil =>
    obtain ⟨c?, -, h⟩ := yields_bind h
    split at h
    · exact absurd h not_yields_throw
    · obtain ⟨-, -, h⟩ := yields_bind h
      exact ⟨d, eq_of_yields_pure h ▸ hcd⟩
    · exact absurd h not_yields_throw
  | @cons q r qs rs hf hrest ih =>
    obtain ⟨more, -, h⟩ := yields_bind h
    cases more with
    | true =>
      obtain ⟨s', hs', h⟩ := yields_bind h
      have hkeep := List.pairwise_cons.mp hsep
      obtain ⟨t', ht'⟩ := ih hkeep.2
        (fun f hf => hkeep.1 f hf s s' hs' (hunset f (List.mem_cons_of_mem _ hf))) h
      exact hf.back s s' t' (hunset q List.mem_cons_self) hs' ht'
    | false =>
      simp only [Bool.false_eq_true, if_false] at h
      split at h
      · exact absurd h not_yields_throw
      · obtain ⟨-, -, h⟩ := yields_bind h
        exact ⟨d, eq_of_yields_pure h ▸ hcd⟩

theorem Checks.recordItems (hS : Relator.RightUnique S)
    (hfields : List.Forall₂ (FieldChecks S) qs rs) (hsep : Separate qs) {expected : String}
    {size position : Nat} {s : σ} {t : τ} (hunset : ∀ f ∈ qs, f.isSet s = false) (h : S s t) :
    Checks S (Reader.recordItems expected size qs position s)
      (Reader.recordItems expected size rs position t) := by
  induction hfields generalizing s t position with
  | nil =>
    refine .after _ fun c => ?_
    split
    · exact .throw
    · exact .after _ fun _ => .pure hS h
    · exact .throw
  | @cons q r qs rs hf hrest ih =>
    refine .after _ fun more => ?_
    cases more with
    | true =>
      have hkeep := List.pairwise_cons.mp hsep
      -- the later fields are still not there when this one has been read
      have hunset' : ∀ s', (q.read s).Yields s' → ∀ f ∈ qs, f.isSet s' = false := fun s' hs' f hf =>
        hkeep.1 f hf s s' hs' (hunset f (List.mem_cons_of_mem _ hf))
      refine .bind (hf.read s t h) (fun s' t' hs' hst => ih hkeep.2 (hunset' s' hs') hst) ?_
      exact fun s' c d hs' hc hcd =>
        accepted_of_yields_recordItems hrest hkeep.2 (hunset' s' hs') hc hcd
    | false =>
      simp only [Bool.false_eq_true, if_false, findIdx?_fieldChecks (.cons hf hrest)]
      split
      · exact .throw
      · exact .after _ fun _ => .pure hS h

/-- Checks of the fields of a record. -/
theorem Checks.record (hS : Relator.RightUnique S)
    (hfields : List.Forall₂ (FieldChecks S) qs rs) (hsep : Separate qs) {s : σ} {t : τ}
    (hunset : ∀ f ∈ qs, f.isSet s = false) (h : S s t) (expected : String) :
    Checks S (Reader.record expected qs s) (Reader.record expected rs t) := by
  refine .after _ fun c => ?_
  split
  · rw [hfields.length_eq]
    exact .nested (.after _ fun _ => .recordItems hS hfields hsep hunset h)
  · refine .nested (.after _ fun _ => .iterate
      (fun _ _ hst => .recordEntry hS hfields hst) ?_ ⟨rfl, h⟩)
    intro s x y hx hxy
    obtain ⟨key, f, s', hf, hset, hs', rfl⟩ | rfl := Yields.of_recordEntry hx
    · cases hxy with
      | inl hxy =>
        obtain ⟨hq, -⟩ | ⟨q, r, hq, -, hr⟩ := find?_fieldChecks hfields key
        · cases hf.symm.trans hq
        · cases hf.symm.trans hq
          obtain ⟨t, ht⟩ := hr.back s.2 s' _ hset hs' hxy.2
          exact ⟨(s.1, t), rfl, ht⟩
    · cases hxy with
      | inr hxy => exact ⟨(s.1, _), rfl, hxy⟩
  · exact .unexpected _

end Records

theorem optionRel_rightUnique (hA : Relator.RightUnique A) :
    Relator.RightUnique (Option.Rel A) := by
  rintro _ _ _ (h | _) (h' | _)
  · rw [hA h h']
  · rfl

theorem isSome_eq_of_optionRel {a? : Option α} {b? : Option β}
    (h : Option.Rel A a? b?) : a?.isSome = b?.isSome := by
  cases h <;> rfl

theorem Checks.required {a? : Option α} {b? : Option β}
    (hA : Relator.RightUnique A) (h : Option.Rel A a? b?) (name : String) :
    Checks A (Reader.required name a?) (Reader.required name b?) := by
  cases h with
  | none => exact .throw
  | some h => exact .pure hA h

theorem eq_some_of_yields_required {a? : Option α} {a : α} {name : String}
    (h : (Reader.required name a?).Yields a) : a? = some a := by
  cases a? with
  | none => exact absurd h not_yields_throw
  | some b => rw [eq_of_yields_pure h]

end Json.Reader
end ArchState
