import ArchState.Proofs.Json.Checks
import ArchState.Proofs.Layout.Validation
import ArchState.Settings.Basic

/-! # Written layouts

A draft of a layout is accepted if all its ranges are, if the last one under the name of each
section says where this section is, and if the parts that it so describes make a layout. This does
not depend on how the draft was read. A text that is read as a layout is one that is read as a draft
and whose draft is accepted: that its ranges are checked one by one while they are read makes no
difference.
-/
namespace ArchState
open Json Json.Reader

/-- Whether the draft of a range means this range. Its literals resolve, and since it is a range the
lower one is not above the higher one. -/
structure RangeDraft.Means (d : RangeDraft) (r : Range) : Prop where
  low : d.low.resolve = .ok r.low
  high : d.high.resolve = .ok r.high

theorem RangeDraft.resolve_eq_ok_iff {d : RangeDraft} {r : Range} :
    d.resolve = .ok r ↔ d.Means r := by
  simp only [resolve, bind_eq_ok_iff, Range.between_eq_ok_iff]
  constructor
  · rintro ⟨_, hlow, _, hhigh, rfl, rfl⟩
    exact ⟨hlow, hhigh⟩
  · rintro ⟨hlow, hhigh⟩
    exact ⟨_, hlow, _, hhigh, rfl, rfl⟩

theorem RangeDraft.means_rightUnique : Relator.RightUnique Means := by
  intro d r r' h h'
  rw [← resolve_eq_ok_iff] at h h'
  exact Except.ok.inj (h.symm.trans h')

section
variable {ε α β : Type} {A : α → β → Prop} {ps : List (String × α)} {qs : List (String × β)}
  {key : String}

theorem mapM_entries_eq_ok_iff {f : α → Except ε β} :
    (ps.mapM fun e => return (e.1, ← f e.2)) = .ok qs ↔
      EntriesRel (fun a b => f a = .ok b) ps qs := by
  induction ps generalizing qs with
  | nil => cases qs <;> simp [pure, Except.pure]
  | cons p ps ih =>
    simp only [List.mapM_cons, bind_eq_ok_iff, ih]
    constructor
    · rintro ⟨_, ⟨b, hb, ⟨⟩⟩, qs, hrest, ⟨⟩⟩
      exact .cons ⟨rfl, hb⟩ hrest
    · intro h
      cases h with
      | @cons _ q _ qs hq hrest =>
        obtain ⟨_, b⟩ := q
        obtain ⟨rfl, hb⟩ := hq
        exact ⟨_, ⟨b, hb, rfl⟩, qs, hrest, rfl⟩

/-- Whether the last one of some entries under `key` has the value `a`. -/
def LastUnder (key : String) (entries : List (String × α)) (a : α) : Prop :=
  ∃ before after, entries = before ++ (key, a) :: after ∧ key ∉ after.map Prod.fst

theorem LastUnder.exists_of_entriesRel {a : α} (ha : LastUnder key ps a) (h : EntriesRel A ps qs) :
    ∃ b, LastUnder key qs b ∧ A a b := by
  obtain ⟨before, after, rfl, hafter⟩ := ha
  induction before generalizing qs with
  | nil =>
    cases h with
    | @cons _ q _ qs hq hrest =>
      obtain ⟨_, b⟩ := q
      obtain ⟨rfl, hab⟩ := hq
      exact ⟨b, ⟨[], qs, rfl, EntriesRel.keys hrest ▸ hafter⟩, hab⟩
  | cons p before ih =>
    cases h with
    | @cons _ q _ qs hq hrest =>
      obtain ⟨b, ⟨before', after', rfl, hafter'⟩, hab⟩ := ih hrest
      exact ⟨b, ⟨q :: before', after', rfl, hafter'⟩, hab⟩

end

namespace LayoutDraft
variable {ρ ρ' : Type} {A : ρ → ρ' → Prop}

/-- Whether a draft describes the parts of a layout, where `A` says which ranges it means. -/
structure Describes (A : ρ → Range → Prop) (d : LayoutDraft ρ) (p : LayoutParts) : Prop where
  identifier : p.identifier = d.identifier
  name : p.name = d.name.getD d.identifier
  /-- All ranges have to be valid, also those under a name that is not one of a section. -/
  ranges : ∀ e ∈ d.sections, ∃ r, A e.2 r
  sections : ∀ s : Section,
    ∃ range, LastUnder s.name d.sections range ∧ A range (p.sections.range s)
  gpOffset : d.gpOffset.resolve = .ok p.gpOffset
  externSize : d.externSize.resolve = .ok p.externSize

theorem range_eq_ok_iff {d : LayoutDraft Range} {s : Section} {r : Range} :
    d.range s = .ok r ↔ LastUnder s.name d.sections r := by
  have hfind : d.range s = .ok r ↔
      ∃ e, d.sections.reverse.find? (·.1 == s.name) = some e ∧ e.2 = r := by
    unfold range
    split
    · rename_i name r' hfound
      simp [hfound]
    · rename_i hnone
      simp [hnone]
  simp only [hfind, List.find?_eq_some_iff_append, beq_iff_eq]
  constructor
  · rintro ⟨⟨_, _⟩, ⟨rfl, after, before, heq, hafter⟩, rfl⟩
    refine ⟨before.reverse, after.reverse, ?_, ?_⟩
    · rw [← List.reverse_reverse d.sections, heq]
      simp
    · intro hmem
      obtain ⟨e, he, hname⟩ := List.mem_map.mp hmem
      simpa [hname] using hafter e (List.mem_reverse.mp he)
  · rintro ⟨before, after, heq, hafter⟩
    refine ⟨(s.name, r), ⟨rfl, after.reverse, before.reverse, ?_, ?_⟩, rfl⟩
    · simp [heq]
    · intro e he
      have hname : e.1 ≠ s.name := fun hname =>
        hafter (List.mem_map.mpr ⟨e, List.mem_reverse.mp he, hname⟩)
      simpa using hname

theorem resolve_eq_ok_iff {d : LayoutDraft Range} {l : Layout} :
    d.resolve = .ok l ↔ ∃ p : LayoutParts, d.Describes Eq p ∧ p.build = .ok l := by
  simp only [resolve, bind_eq_ok_iff]
  constructor
  · rintro ⟨text, htext, data, hdata, heap, hheap, stack, hstack, mmio, hmmio, gp, hgp, size, hsize,
      hbuild⟩
    refine ⟨⟨d.identifier, d.name.getD d.identifier, ⟨text, data, heap, stack, mmio⟩, gp, size⟩,
      ⟨rfl, rfl, fun e _ => ⟨e.2, rfl⟩, fun s => ?_, hgp, hsize⟩, hbuild⟩
    refine ⟨_, range_eq_ok_iff.mp ?_, rfl⟩
    cases s with
    | text => exact htext
    | data => exact hdata
    | heap => exact hheap
    | stack => exact hstack
    | mmio => exact hmmio
  · rintro ⟨⟨_, _, ⟨text, data, heap, stack, mmio⟩, gp, size⟩,
      ⟨rfl, rfl, -, hsections, hgp, hsize⟩, hbuild⟩
    have hrange (s : Section) :
        d.range s = .ok (Sections.range ⟨text, data, heap, stack, mmio⟩ s) := by
      obtain ⟨r, hr, rfl⟩ := hsections s
      exact range_eq_ok_iff.mpr hr
    exact ⟨text, hrange .text, data, hrange .data, heap, hrange .heap, stack, hrange .stack, mmio,
      hrange .mmio, gp, hgp, size, hsize, hbuild⟩

/-- Whether two drafts differ only in their ranges and `A` holds of these. -/
structure Agrees (A : ρ → ρ' → Prop) (d : LayoutDraft ρ) (d' : LayoutDraft ρ') : Prop where
  identifier : d'.identifier = d.identifier
  name : d'.name = d.name
  sections : EntriesRel A d.sections d'.sections
  gpOffset : d'.gpOffset = d.gpOffset
  externSize : d'.externSize = d.externSize

theorem describes_iff_of_agrees {A : ρ → Range → Prop} (hA : Relator.RightUnique A)
    {d : LayoutDraft ρ} {d' : LayoutDraft Range} (h : d.Agrees A d') {p : LayoutParts} :
    d.Describes A p ↔ d'.Describes Eq p := by
  constructor
  · rintro ⟨hidentifier, hname, -, hsections, hgp, hsize⟩
    refine ⟨by rw [hidentifier, h.identifier], by rw [hname, h.name, h.identifier],
      fun e _ => ⟨e.2, rfl⟩, fun s => ?_, by rw [h.gpOffset, hgp], by rw [h.externSize, hsize]⟩
    obtain ⟨a, ha, har⟩ := hsections s
    obtain ⟨r, hr, hr'⟩ := ha.exists_of_entriesRel h.sections
    exact ⟨r, hr, hA hr' har⟩
  · rintro ⟨hidentifier, hname, -, hsections, hgp, hsize⟩
    refine ⟨by rw [hidentifier, h.identifier], by rw [hname, h.name, h.identifier],
      exists_entriesRel_iff.mp ⟨_, h.sections⟩, fun s => ?_, by rw [← h.gpOffset, hgp],
      by rw [← h.externSize, hsize]⟩
    obtain ⟨_, hr, rfl⟩ := hsections s
    exact hr.exists_of_entriesRel (EntriesRel.swap h.sections)

/-- A draft describes a layout exactly if its ranges can be put in and it then resolves. -/
theorem exists_describes_iff {A : ρ → Range → Prop} (hA : Relator.RightUnique A)
    {d : LayoutDraft ρ} {l : Layout} : (∃ p : LayoutParts, d.Describes A p ∧ p.build = .ok l) ↔
      ∃ d' : LayoutDraft Range, d.Agrees A d' ∧ d'.resolve = .ok l := by
  simp only [resolve_eq_ok_iff]
  constructor
  · rintro ⟨p, hp, hbuild⟩
    obtain ⟨ranges, hranges⟩ := exists_entriesRel_iff.mpr hp.ranges
    have h : d.Agrees A { d with sections := ranges } := ⟨rfl, rfl, hranges, rfl, rfl⟩
    exact ⟨_, h, p, (describes_iff_of_agrees hA h).mp hp, hbuild⟩
  · rintro ⟨d', h, p, hp, hbuild⟩
    exact ⟨p, (describes_iff_of_agrees hA h).mpr hp, hbuild⟩

/-- The layout that a draft means, whose ranges are resolved before all else. -/
def resolveAll (d : LayoutDraft RangeDraft) : Except LayoutError Layout := do
  let sections ← d.sections.mapM fun e => return (e.1, ← e.2.resolve)
  { d with sections }.resolve

theorem resolveAll_eq_ok_iff_agrees {d : LayoutDraft RangeDraft} {l : Layout} :
    d.resolveAll = .ok l ↔
      ∃ d' : LayoutDraft Range, d.Agrees RangeDraft.Means d' ∧ d'.resolve = .ok l := by
  simp only [resolveAll, bind_eq_ok_iff, mapM_entries_eq_ok_iff, RangeDraft.resolve_eq_ok_iff]
  constructor
  · rintro ⟨sections, hsections, hl⟩
    exact ⟨_, ⟨rfl, rfl, hsections, rfl, rfl⟩, hl⟩
  · rintro ⟨⟨_, _, sections, _, _⟩, ⟨rfl, rfl, hsections, rfl, rfl⟩, hl⟩
    exact ⟨sections, hsections, hl⟩

theorem resolveAll_eq_ok_iff {d : LayoutDraft RangeDraft} {l : Layout} : d.resolveAll = .ok l ↔
    ∃ p : LayoutParts, d.Describes RangeDraft.Means p ∧ p.build = .ok l := by
  rw [resolveAll_eq_ok_iff_agrees, exists_describes_iff RangeDraft.means_rightUnique]

/-- It does not matter where a draft comes from. -/
theorem read_eq_ok_iff {τ ε : Type} {read : τ → Except ε (LayoutDraft RangeDraft)}
    {wrap : LayoutError → ε} {x : τ} {l : Layout} :
    (do let d ← read x; d.resolveAll.mapError wrap) = .ok l ↔ ∃ d, read x = .ok d ∧
      ∃ p : LayoutParts, d.Describes RangeDraft.Means p ∧ p.build = .ok l := by
  have hmap {y : Except LayoutError Layout} : y.mapError wrap = .ok l ↔ y = .ok l := by
    cases y <;> simp [Except.mapError]
  simp only [bind_eq_ok_iff, hmap, resolveAll_eq_ok_iff]

end LayoutDraft

namespace Json
variable {ρ ρ' : Type} {A : ρ → ρ' → Prop} {f : LayoutFields ρ} {f' : LayoutFields ρ'}

structure LayoutFields.Agrees (A : ρ → ρ' → Prop) (f : LayoutFields ρ) (f' : LayoutFields ρ') :
    Prop where
  identifier : f'.identifier = f.identifier
  name : f'.name = f.name
  sections : Option.Rel (EntriesRel A) f.sections f'.sections
  gpOffset : f'.gpOffset = f.gpOffset
  externSize : f'.externSize = f.externSize

namespace Reader

theorem layoutFields_agrees_rightUnique (hA : Relator.RightUnique A) :
    Relator.RightUnique (LayoutFields.Agrees A) := by
  rintro f ⟨i, n, s, g, e⟩ ⟨i', n', s', g', e'⟩ ⟨hi, hn, hs, hg, he⟩ ⟨hi', hn', hs', hg', he'⟩
  have hsections := optionRel_rightUnique (entriesRel_rightUnique hA) hs hs'
  simp only at *
  subst_vars
  rfl

theorem fieldChecks_layoutFields (hA : Relator.RightUnique A) {q : Reader ρ} {r : Reader ρ'}
    (h : Checks A q r) :
    List.Forall₂ (FieldChecks (LayoutFields.Agrees A)) (layoutFields q) (layoutFields r) := by
  have hunique := layoutFields_agrees_rightUnique hA
  refine .cons ?identifier (.cons ?name (.cons ?sections (.cons ?gpOffset
    (.cons ?externSize .nil))))
  case identifier =>
    refine .update hunique (.refl text) (fun s t hst => by rw [hst.identifier]) ?_
      (fun _ a _ _ => ⟨a, rfl⟩) ?_
    · rintro s t a _ ⟨hi, hn, hs, hg, he⟩ rfl
      exact ⟨rfl, hn, hs, hg, he⟩
    · rintro s a t' - ⟨hi, hn, hs, hg, he⟩
      exact ⟨{ t' with identifier := s.identifier }, rfl, hn, hs, hg, he⟩
  case name =>
    refine .update hunique (.refl optionalText) (fun s t hst => by rw [hst.name]) ?_
      (fun _ a _ _ => ⟨a, rfl⟩) ?_
    · rintro s t a _ ⟨hi, hn, hs, hg, he⟩ rfl
      exact ⟨hi, rfl, hs, hg, he⟩
    · rintro s a t' - ⟨hi, hn, hs, hg, he⟩
      exact ⟨{ t' with name := s.name }, hi, rfl, hs, hg, he⟩
  case sections =>
    refine .update hunique (.map hA h) ?_ ?_ ?_ ?_
    · exact fun s t hst => isSome_eq_of_optionRel hst.sections
    · rintro s t a b ⟨hi, hn, hs, hg, he⟩ hab
      exact ⟨hi, hn, .some hab, hg, he⟩
    · rintro s a ⟨_, _, _, _, _⟩ ⟨-, -, hs, -, -⟩
      cases hs with
      | some hab => exact ⟨_, hab⟩
    · rintro s a t' hunset ⟨hi, hn, hs, hg, he⟩
      have hnone : s.sections = none := by simpa using hunset
      exact ⟨{ t' with sections := none }, hi, hn, hnone ▸ .none, hg, he⟩
  case gpOffset =>
    refine .update hunique (.refl literal) (fun s t hst => by rw [hst.gpOffset]) ?_
      (fun _ a _ _ => ⟨a, rfl⟩) ?_
    · rintro s t a _ ⟨hi, hn, hs, hg, he⟩ rfl
      exact ⟨hi, hn, hs, rfl, he⟩
    · rintro s a t' - ⟨hi, hn, hs, hg, he⟩
      exact ⟨{ t' with gpOffset := s.gpOffset }, hi, hn, hs, rfl, he⟩
  case externSize =>
    refine .update hunique (.refl literal) (fun s t hst => by rw [hst.externSize]) ?_
      (fun _ a _ _ => ⟨a, rfl⟩) ?_
    · rintro s t a _ ⟨hi, hn, hs, hg, he⟩ rfl
      exact ⟨hi, hn, hs, hg, rfl⟩
    · rintro s a t' - ⟨hi, hn, hs, hg, he⟩
      exact ⟨{ t' with externSize := s.externSize }, hi, hn, hs, hg, rfl⟩

theorem separate_layoutFields (q : Reader ρ) : Separate (layoutFields q) := by
  simp only [Separate, layoutFields, List.pairwise_cons, List.mem_cons, forall_eq_or_imp,
    List.not_mem_nil, false_imp_iff, implies_true, List.Pairwise.nil, and_true]
  refine ⟨⟨?_, ?_, ?_, ?_⟩, ⟨?_, ?_, ?_⟩, ⟨?_, ?_⟩, ?_⟩ <;>
  · intro s s' h hunset
    obtain ⟨a, rfl⟩ := exists_of_yields_update h
    exact hunset

theorem layoutDraft_agrees_rightUnique (hA : Relator.RightUnique A) :
    Relator.RightUnique (LayoutDraft.Agrees A) := by
  rintro d ⟨i, n, s, g, e⟩ ⟨i', n', s', g', e'⟩ ⟨hi, hn, hs, hg, he⟩ ⟨hi', hn', hs', hg', he'⟩
  have hsections := entriesRel_rightUnique hA hs hs'
  simp only at *
  subst_vars
  rfl

/-- Checks of the ranges of a draft. -/
theorem Checks.layoutDraft (hA : Relator.RightUnique A) {q : Reader ρ} {r : Reader ρ'}
    (h : Checks A q r) :
    Checks (LayoutDraft.Agrees A) (Reader.layoutDraft q) (Reader.layoutDraft r) := by
  have hunique := layoutFields_agrees_rightUnique hA
  have hstart : LayoutFields.Agrees A {} {} := ⟨rfl, rfl, .none, rfl, rfl⟩
  have hunset : ∀ field ∈ layoutFields q, field.isSet {} = false := by simp [layoutFields]
  refine .bind (.record hunique (fieldChecks_layoutFields hA h) (separate_layoutFields q) hunset
    hstart _) ?_ ?_
  · rintro f f' - hf
    rw [hf.identifier, hf.name, hf.gpOffset, hf.externSize]
    refine .after _ fun identifier =>
      .bind (.required (entriesRel_rightUnique hA) hf.sections _) ?_ ?_
    · intro sections sections' _ hs
      refine .after _ fun gpOffset => .after _ fun externSize => ?_
      exact .pure (layoutDraft_agrees_rightUnique hA) ⟨rfl, rfl, hs, rfl, rfl⟩
    · intro sections d d' _ hd hdd'
      obtain ⟨gpOffset, -, hd⟩ := yields_bind hd
      obtain ⟨externSize, -, hd⟩ := yields_bind hd
      obtain rfl := eq_of_yields_pure hd
      exact ⟨d'.sections, hdd'.sections⟩
  · -- a draft that is accepted gives the checked sections, which the fields would have held
    intro f d d' _ hd hdd'
    obtain ⟨identifier, -, hd⟩ := yields_bind hd
    obtain ⟨sections, hsections, hd⟩ := yields_bind hd
    obtain ⟨gpOffset, -, hd⟩ := yields_bind hd
    obtain ⟨externSize, -, hd⟩ := yields_bind hd
    obtain rfl := eq_of_yields_pure hd
    refine ⟨{ f with sections := some d'.sections }, rfl, rfl, ?_, rfl, rfl⟩
    rw [eq_some_of_yields_required hsections]
    exact .some hdd'.sections

/-- A reader that accepts what it has read or refuses it. -/
theorem Checks.accepted {α β : Type} (q : Reader α) (f : α → Except LayoutError β) :
    Checks (fun a b => f a = .ok b) q (do accept (f (← q))) := by
  intro depth cs b rest
  rw [reads_bind_iff]
  constructor
  · rintro ⟨a, mid, ha, hb⟩
    cases h : f a with
    | error e =>
      rw [h] at hb
      exact absurd hb not_reads_throw
    | ok b' =>
      rw [h] at hb
      obtain ⟨rfl, rfl⟩ := reads_pure_iff.mp hb
      exact ⟨a, ha, h⟩
  · rintro ⟨a, ha, h⟩
    refine ⟨a, rest, ha, ?_⟩
    rw [h]
    exact reads_pure_iff.mpr ⟨rfl, rfl⟩

theorem Checks.range : Checks RangeDraft.Means rangeDraft range := by
  intro depth cs r rest
  simp only [← RangeDraft.resolve_eq_ok_iff]
  exact Checks.accepted rangeDraft RangeDraft.resolve depth cs r rest

/-- What is read as a layout is what is read as a draft of one and resolves to it. -/
theorem Checks.layout : Checks (fun d l => d.resolveAll = .ok l) (Reader.layoutDraft rangeDraft)
    Reader.layout := by
  intro depth cs l rest
  -- the draft with resolved ranges stands between the written draft and the layout
  simp only [LayoutDraft.resolveAll_eq_ok_iff_agrees]
  have hdraft := Checks.layoutDraft RangeDraft.means_rightUnique Checks.range
  have hlayout := Checks.accepted (Reader.layoutDraft Reader.range) LayoutDraft.resolve
  refine (hlayout depth cs l rest).trans ?_
  constructor
  · rintro ⟨d', hd', hl⟩
    obtain ⟨d, hd, hdd'⟩ := (hdraft depth cs d' rest).mp hd'
    exact ⟨d, hd, d', hdd', hl⟩
  · rintro ⟨d, hd, d', hdd', hl⟩
    exact ⟨d', (hdraft depth cs d' rest).mpr ⟨d, hd, hdd'⟩, hl⟩

end Reader
end Json

namespace Layout

theorem ofJson_eq_ok_iff {json : String} {l : Layout} : ofJson json = .ok l ↔
    ∃ d, (layoutDraft rangeDraft).run json = .ok d ∧ d.resolveAll = .ok l := by
  rw [← Checks.layout.run_eq_ok_iff, ofJson]
  cases Reader.layout.run json with
  | error e => simp [Except.mapError]
  | ok l' => simp [Except.mapError]

/-- Parts make a layout exactly if they pass all checks, and the layout then consists of them;
otherwise the first check that fails is reported, with the whole address. However a draft is read,
it makes a layout exactly if it describes parts that make this layout. A text is one such source,
alone or inside another one. All layouts pass the checks, built-in ones and those of a catalog like
others, and so the addresses that are derived from them do not wrap around and lie inside their
sections. -/
theorem made_of_valid_parts :
    (∀ p : LayoutParts, ((∃ l, p.build = .ok l) ↔ ∀ c, p.Passes c) ∧
      (∀ l, p.build = .ok l ↔ l.parts = p) ∧
      ∀ e, p.build = .error e ↔ ∃ c, p.FirstFailed c ∧ e = p.fault c) ∧
    (∀ (τ ε : Type) (read : τ → Except ε (LayoutDraft RangeDraft)) (wrap : LayoutError → ε) x l,
      (do let d ← read x; d.resolveAll.mapError wrap) = .ok l ↔ ∃ d, read x = .ok d ∧
        ∃ p : LayoutParts, d.Describes RangeDraft.Means p ∧ p.build = .ok l) ∧
    (∀ depth cs l rest, Reads Reader.layout depth cs l rest ↔
      ∃ d, Reads (layoutDraft rangeDraft) depth cs d rest ∧
        ∃ p : LayoutParts, d.Describes RangeDraft.Means p ∧ p.build = .ok l) ∧
    (∀ json l, ofJson json = .ok l ↔
      ∃ d, (layoutDraft rangeDraft).run json = .ok d ∧
        ∃ p : LayoutParts, d.Describes RangeDraft.Means p ∧ p.build = .ok l) ∧
    ∀ l : Layout, (∀ c, l.parts.Passes c) ∧
      (∀ s, (l.sections.range s).low ≤ (l.sections.range s).high) ∧
      l.globalPointer.toNat = l.sections.data.low.toNat + l.gpOffset.toNat ∧
      l.dataBase.toNat = l.sections.data.low.toNat + l.externSize.toNat ∧
      l.stackBase.toNat = l.sections.stack.high.toNat / 4 * 4 ∧
      l.dataSegmentLimit.toNat = max l.sections.data.high.toNat l.sections.heap.high.toNat ∧
      l.sections.data.contains l.globalPointer = true ∧
      l.sections.data.contains l.dataBase = true ∧
      l.sections.stack.contains l.stackBase = true := by
  refine ⟨fun p => ⟨p.exists_build_iff, fun l => p.build_eq_ok_iff, fun e => p.build_eq_error_iff⟩,
    fun _ _ _ _ _ _ => LayoutDraft.read_eq_ok_iff, fun depth cs l rest => ?_, fun json l => ?_,
    fun l => ⟨l.passes_parts,
      fun s => (l.sections.range s).low_le_high, l.globalPointer_toNat, l.dataBase_toNat,
      l.stackBase_toNat, l.dataSegmentLimit_toNat, l.contains_globalPointer, l.contains_dataBase,
      l.contains_stackBase⟩⟩
  · simp only [← LayoutDraft.resolveAll_eq_ok_iff]
    exact Checks.layout depth cs l rest
  · simp only [← LayoutDraft.resolveAll_eq_ok_iff]
    exact ofJson_eq_ok_iff

/-- An offset that would wrap around is reported with the address that it would lead to. -/
example : LayoutParts.build ⟨"a", "a", default.sections, 0xFFFFFFFF, 0⟩ =
    .error (.outsideData "a" .globalPointer 0x10FFFFFFF) := rfl

/-- Another name than those of the sections is passed over, and without a name the identifier is
taken. -/
example :
    let json := "[\"T\",null,\x7b\".text\":[0,1],\".data\":[4,\"0x8\"],\"heap\":[0,1]," ++
      "\"rom\":[0,9],\"stack\":[0,7],\"mmio\":[8,9]\x7d,1,2]"
    (ofJson json).toOption.map parts = some
      { identifier := "T"
        name := "T"
        sections :=
          { text := ⟨0, 1, by decide⟩
            data := ⟨4, 8, by decide⟩
            heap := ⟨0, 1, by decide⟩
            stack := ⟨0, 7, by decide⟩
            mmio := ⟨8, 9, by decide⟩ }
        gpOffset := 1
        externSize := 2 } := by decide +kernel

end Layout
end ArchState
