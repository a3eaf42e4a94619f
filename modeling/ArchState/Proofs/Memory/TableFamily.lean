import Mathlib.Logic.Function.Basic
import ArchState.Proofs.Memory.SlotArray

/-! # Families of block tables

Tables that live side by side are asked one after the other, and copied into each other. Beside
them stands a family of arrays with a slot for each word, which knows no blocks. Both give the same
answers along every run and hold the same in the end. Which blocks are allocated follows from the
requests alone.
-/
namespace ArchState

/-- What a family of tables can be asked; `ι` names the tables. -/
inductive SlotRequest (ι α β σ : Type) where
  | read (k : ι) (i : Nat)
  | write (k : ι) (i : Nat) (value : α)
  /-- Updates a slot by a function of its content. The function may also look at the world around
  the tables and change it. -/
  | update (k : ι) (i : Nat) (f : Option α → σ → Option α × β × σ)
  | clear (k : ι)
  /-- Copies table `source` into table `k`. -/
  | copy (k source : ι)

inductive SlotAnswer (α β : Type) where
  | content (old : Option α)
  /-- What the function of an update has answered, if it was used. -/
  | result (answer : Option β)
  | cleared
  | copied (done : Bool)
  deriving DecidableEq

namespace SlotRequest
variable {ι α β σ : Type}

/-- The table that a request may change. -/
def target? : SlotRequest ι α β σ → Option ι
  | read _ _ => none
  | write k _ _ | update k _ _ | clear k | copy k _ => some k

/-- Whether a request updates a slot of block `b` of table `k`. -/
def Updates (k : ι) (b : Nat) : SlotRequest ι α β σ → Prop
  | write j i _ | update j i _ => j = k ∧ i / blockWords = b
  | _ => False

/-- Whether a request replaces all blocks of table `k`: it clears the table, or it copies one of
the same length into it. -/
def Replaces (lengths : ι → Nat) (k : ι) : SlotRequest ι α β σ → Prop
  | clear j => j = k
  | copy j source => j = k ∧ lengths source = lengths k
  | _ => False

theorem replaces_iff {lengths : ι → Nat} {q : SlotRequest ι α β σ} {k : ι} :
    q.Replaces lengths k ↔
      q = clear k ∨ ∃ source, q = copy k source ∧ lengths source = lengths k := by
  cases q <;> simp [Replaces]

end SlotRequest

/-- Arrays of slots, and the world around them. -/
structure ArrayFamily (ι α σ : Type) where
  array : ι → Array (Option α)
  world : σ

namespace ArrayFamily
variable {ι α β σ : Type}

/-- Arrays with as many slots as `lengths` blocks have words, all of them empty. -/
def empty (lengths : ι → Nat) (world : σ) : ArrayFamily ι α σ where
  array k := Array.replicate (lengths k * blockWords) none
  world := world

/-- The content of a slot; past the array there is none. -/
def look (s : ArrayFamily ι α σ) (k : ι) (i : Nat) : Option α := (s.array k)[i]?.join

variable [DecidableEq ι]

/-- The family with one slot replaced; past the array nothing changes. -/
def put (s : ArrayFamily ι α σ) (k : ι) (i : Nat) (content : Option α) : ArrayFamily ι α σ :=
  { s with array := Function.update s.array k ((s.array k).setIfInBounds i content) }

def serve (s : ArrayFamily ι α σ) :
    SlotRequest ι α β σ → SlotAnswer α β × ArrayFamily ι α σ
  | .read k i => (.content (s.look k i), s)
  | .write k i value => (.content (s.look k i), s.put k i (some value))
  | .update k i f =>
    if i < (s.array k).size then
      let (content, answer, world) := f (s.look k i) s.world
      (.result (some answer), { s.put k i content with world })
    else (.result none, s)
  | .clear k =>
    (.cleared,
      { s with array := Function.update s.array k (Array.replicate (s.array k).size none) })
  | .copy k source =>
    if (s.array source).size = (s.array k).size then
      (.copied true, { s with array := Function.update s.array k (s.array source) })
    else (.copied false, s)

def run (s : ArrayFamily ι α σ) (requests : List (SlotRequest ι α β σ)) : ArrayFamily ι α σ :=
  requests.foldl (fun s q => (s.serve q).2) s

def answers (s : ArrayFamily ι α σ) : List (SlotRequest ι α β σ) → List (SlotAnswer α β)
  | [] => []
  | q :: requests => (s.serve q).1 :: answers (s.serve q).2 requests

end ArrayFamily

/-- Block tables, and the world around them. -/
structure TableFamily (ι α σ : Type) where
  table : ι → BlockTable α
  world : σ

namespace TableFamily
variable {ι α β σ : Type}

def empty (lengths : ι → Nat) (world : σ) : TableFamily ι α σ where
  table k := .empty (lengths k)
  world := world

def lengths (s : TableFamily ι α σ) (k : ι) : Nat := (s.table k).length

/-- The arrays that the tables stand for. -/
def flat (s : TableFamily ι α σ) : ArrayFamily ι α σ := ⟨fun k => (s.table k).flat, s.world⟩

theorem lengths_empty (lengths : ι → Nat) (world : σ) :
    (empty lengths world : TableFamily ι α σ).lengths = lengths := by
  funext k
  exact BlockTable.length_empty (lengths k)

theorem flat_empty (lengths : ι → Nat) (world : σ) :
    (empty lengths world : TableFamily ι α σ).flat = .empty lengths world := by
  simp only [flat, empty, ArrayFamily.empty, BlockTable.flat_empty]

@[simp] theorem look_flat (s : TableFamily ι α σ) (k : ι) (i : Nat) :
    s.flat.look k i = (s.table k).slot i := (s.table k).join_getElem?_flat i

variable [DecidableEq ι]

/-- The family with one table replaced. -/
def set (s : TableFamily ι α σ) (k : ι) (t : BlockTable α) : TableFamily ι α σ :=
  { s with table := Function.update s.table k t }

def serve (s : TableFamily ι α σ) :
    SlotRequest ι α β σ → SlotAnswer α β × TableFamily ι α σ
  | .read k i => (.content ((s.table k).slot i), s)
  | .write k i value =>
    let (old, t) := (s.table k).write i value
    (.content old, s.set k t)
  | .update k i f =>
    match (s.table k).update i fun old => f old s.world with
    | some ((answer, world), t) => (.result (some answer), { s.set k t with world })
    | none => (.result none, s)
  | .clear k => (.cleared, s.set k (s.table k).clear)
  | .copy k source =>
    match (s.table k).copyFrom? (s.table source) with
    | some t => (.copied true, s.set k t)
    | none => (.copied false, s)

def run (s : TableFamily ι α σ) (requests : List (SlotRequest ι α β σ)) : TableFamily ι α σ :=
  requests.foldl (fun s q => (s.serve q).2) s

def answers (s : TableFamily ι α σ) : List (SlotRequest ι α β σ) → List (SlotAnswer α β)
  | [] => []
  | q :: requests => (s.serve q).1 :: answers (s.serve q).2 requests

variable {s : TableFamily ι α σ} {q : SlotRequest ι α β σ} {k source : ι} {i b : Nat}

theorem flat_set (s : TableFamily ι α σ) (k : ι) (t : BlockTable α) :
    (s.set k t).flat = { s.flat with array := Function.update s.flat.array k t.flat } := by
  simp only [flat, set, ArrayFamily.mk.injEq, and_true]
  funext j
  exact Function.apply_update (fun _ => BlockTable.flat) s.table k t j

theorem flat_set_put (s : TableFamily ι α σ) (k : ι) (i : Nat) (content : Option α) :
    (s.set k ((s.table k).put i content)).flat = s.flat.put k i content := by
  rw [flat_set, BlockTable.flat_put]
  rfl

theorem serve_write (s : TableFamily ι α σ) (k : ι) (i : Nat) (value : α) :
    s.serve (.write k i value : SlotRequest ι α β σ) =
      (.content ((s.table k).slot i), s.set k ((s.table k).put i (some value))) := by
  simp only [serve, BlockTable.write_eq]

theorem serve_update_of_lt (h : i < (s.table k).capacity)
    {f : Option α → σ → Option α × β × σ} {content : Option α} {answer : β} {world : σ}
    (hf : f ((s.table k).slot i) s.world = (content, answer, world)) :
    s.serve (.update k i f) =
      (.result (some answer), { s.set k ((s.table k).put i content) with world }) := by
  simp only [serve, BlockTable.update_of_lt h, hf]

theorem serve_update_of_le (h : (s.table k).capacity ≤ i)
    (f : Option α → σ → Option α × β × σ) : s.serve (.update k i f) = (.result none, s) := by
  simp only [serve, BlockTable.update_of_le h]

theorem serve_copy_of_length (h : s.lengths source = s.lengths k) :
    s.serve (.copy k source : SlotRequest ι α β σ) = (.copied true, s.set k (s.table source)) := by
  have hlength : (s.table source).length = (s.table k).length := h
  simp only [serve, BlockTable.copyFrom?, if_pos hlength]

theorem serve_copy_of_length_ne (h : s.lengths source ≠ s.lengths k) :
    s.serve (.copy k source : SlotRequest ι α β σ) = (.copied false, s) := by
  have hlength : (s.table source).length ≠ (s.table k).length := h
  simp only [serve, BlockTable.copyFrom?, if_neg hlength]

theorem serve_flat (s : TableFamily ι α σ) (q : SlotRequest ι α β σ) :
    s.flat.serve q = ((s.serve q).1, (s.serve q).2.flat) := by
  cases q with
  | read k i => simp only [serve, ArrayFamily.serve, look_flat]
  | write k i value => simp only [serve_write, ArrayFamily.serve, look_flat, flat_set_put]
  | update k i f =>
    have hsize : (s.flat.array k).size = (s.table k).capacity := (s.table k).size_flat
    by_cases h : i < (s.table k).capacity
    · rcases hf : f ((s.table k).slot i) s.world with ⟨content, answer, world⟩
      have hlook : f (s.flat.look k i) s.flat.world = (content, answer, world) := by
        rw [look_flat]
        exact hf
      have hput : ({ s.set k ((s.table k).put i content) with world } : TableFamily ι α σ).flat =
          { s.flat.put k i content with world } := by
        rw [← flat_set_put]
        rfl
      rw [serve_update_of_lt h hf, ArrayFamily.serve, if_pos (hsize ▸ h), hlook, hput]
    · have hle := Nat.le_of_not_lt h
      rw [serve_update_of_le hle, ArrayFamily.serve, if_neg (hsize ▸ h)]
  | clear k =>
    have hclear : (s.table k).clear.flat = Array.replicate (s.flat.array k).size none := by
      rw [BlockTable.clear, BlockTable.flat_empty]
      exact congrArg (Array.replicate · none) (s.table k).size_flat.symm
    rw [serve, ArrayFamily.serve, flat_set, hclear]
  | copy k source =>
    have hsize : (s.flat.array source).size = (s.flat.array k).size ↔
        s.lengths source = s.lengths k := by
      simp [flat, lengths, BlockTable.capacity_eq_iff]
    by_cases h : s.lengths source = s.lengths k
    · rw [serve_copy_of_length h, ArrayFamily.serve, if_pos (hsize.mpr h), flat_set]
      rfl
    · rw [serve_copy_of_length_ne h, ArrayFamily.serve, if_neg (mt hsize.mp h)]

/-- What a request comes to for the tables: nothing, one slot of one table, or all blocks of one
table. -/
inductive Serves (s : TableFamily ι α σ) (q : SlotRequest ι α β σ) : Prop
  | kept : (s.serve q).2.table = s.table → (∀ j b, ¬ q.Updates j b) → Serves s q
  | stored (k : ι) (i : Nat) (content : Option α) :
      (s.serve q).2.table = Function.update s.table k ((s.table k).put i content) →
      q.target? = some k → (∀ j b, q.Updates j b ↔ k = j ∧ i / blockWords = b) → Serves s q
  | replaced (k : ι) (t : BlockTable α) : (s.serve q).2.table = Function.update s.table k t →
      q.target? = some k → t.length = s.lengths k → q.Replaces s.lengths k →
      (∀ j b, ¬ q.Updates j b) → Serves s q

theorem serves (s : TableFamily ι α σ) (q : SlotRequest ι α β σ) : Serves s q := by
  cases q with
  | read k i => exact .kept rfl fun _ _ => id
  | write k i value =>
    refine .stored k i (some value) ?_ rfl fun _ _ => Iff.rfl
    rw [serve_write]
    rfl
  | update k i f =>
    rcases hf : f ((s.table k).slot i) s.world with ⟨content, answer, world⟩
    refine .stored k i content ?_ rfl fun _ _ => Iff.rfl
    by_cases h : i < (s.table k).capacity
    · rw [serve_update_of_lt h hf]
      rfl
    · -- Nothing is put past the table, so this is no case of its own.
      have hle := Nat.le_of_not_lt h
      rw [serve_update_of_le hle, BlockTable.put_of_le hle, Function.update_eq_self]
  | clear k => exact .replaced k _ rfl rfl (BlockTable.length_empty _) rfl fun _ _ => id
  | copy k source =>
    by_cases h : s.lengths source = s.lengths k
    · refine .replaced k (s.table source) ?_ rfl h ⟨rfl, h⟩ fun _ _ => id
      rw [serve_copy_of_length h]
      rfl
    · refine .kept ?_ fun _ _ => id
      rw [serve_copy_of_length_ne h]

theorem length_update (s : TableFamily ι α σ) {t : BlockTable α} (h : t.length = s.lengths k)
    (j : ι) : (Function.update s.table k t j).length = s.lengths j := by
  by_cases hj : j = k
  · subst hj
    rw [Function.update_self, h]
  · rw [Function.update_of_ne hj, lengths]

theorem lengths_serve (s : TableFamily ι α σ) (q : SlotRequest ι α β σ) :
    (s.serve q).2.lengths = s.lengths := by
  funext j
  rw [lengths]
  cases s.serves q with
  | kept htable => rw [htable, lengths]
  | stored k i content htable =>
    rw [htable]
    exact s.length_update (BlockTable.length_put ..) j
  | replaced k t htable _ hlength =>
    rw [htable]
    exact s.length_update hlength j

/-- A request changes no table but the one that it is made to. -/
theorem table_serve_of_ne (h : q.target? ≠ some k) : (s.serve q).2.table k = s.table k := by
  cases s.serves q with
  | kept htable => rw [htable]
  | stored j i content htable htarget =>
    rw [htable, Function.update_of_ne]
    rintro rfl
    exact h htarget
  | replaced j t htable htarget =>
    rw [htable, Function.update_of_ne]
    rintro rfl
    exact h htarget

/-- A request that leaves the other blocks of a table alone allocates the block that it updates. -/
theorem allocatedAt_serve_iff (h : ¬ q.Replaces s.lengths k) (b : Nat) :
    ((s.serve q).2.table k).allocatedAt b = true ↔
      (b < s.lengths k ∧ q.Updates k b) ∨ (s.table k).allocatedAt b = true := by
  cases s.serves q with
  | kept htable hupdates => simp [htable, hupdates]
  | stored j i content htable _ hupdates =>
    rw [htable]
    by_cases hj : k = j
    · subst hj
      simp [BlockTable.allocatedAt_put_iff, hupdates, lengths]
    · simp [Function.update_of_ne hj, hupdates, Ne.symm hj]
  | replaced j t htable _ _ hreplaces hupdates =>
    have hj : k ≠ j := by
      rintro rfl
      exact h hreplaces
    simp [htable, Function.update_of_ne hj, hupdates]

theorem table_serve_clear (s : TableFamily ι α σ) (k : ι) :
    (s.serve (.clear k : SlotRequest ι α β σ)).2.table k = (s.table k).clear :=
  Function.update_self ..

theorem table_serve_copy (h : s.lengths source = s.lengths k) :
    (s.serve (.copy k source : SlotRequest ι α β σ)).2.table k = s.table source := by
  rw [serve_copy_of_length h]
  exact Function.update_self ..

theorem run_flat (s : TableFamily ι α σ) (requests : List (SlotRequest ι α β σ)) :
    s.answers requests = s.flat.answers requests ∧
      (s.run requests).flat = s.flat.run requests := by
  induction requests generalizing s with
  | nil => exact ⟨rfl, rfl⟩
  | cons q requests ih =>
    obtain ⟨hanswers, hrun⟩ := ih (s.serve q).2
    have hflat := s.serve_flat q
    constructor
    · rw [answers, ArrayFamily.answers, hflat, hanswers]
    · have hstep : s.flat.run (q :: requests) = (s.flat.serve q).2.run requests := rfl
      rw [hstep, hflat]
      exact hrun

theorem lengths_run (s : TableFamily ι α σ) (requests : List (SlotRequest ι α β σ)) :
    (s.run requests).lengths = s.lengths := by
  induction requests generalizing s with
  | nil => rfl
  | cons q requests ih => exact (ih (s.serve q).2).trans (s.lengths_serve q)

theorem table_run_of_ne {requests : List (SlotRequest ι α β σ)}
    (h : ∀ q ∈ requests, q.target? ≠ some k) : (s.run requests).table k = s.table k := by
  induction requests generalizing s with
  | nil => rfl
  | cons q requests ih =>
    have hrest := ih (s := (s.serve q).2) fun r hr => h r (List.mem_cons_of_mem q hr)
    exact hrest.trans (table_serve_of_ne (h q List.mem_cons_self))

theorem run_concat (s : TableFamily ι α σ) (requests : List (SlotRequest ι α β σ))
    (q : SlotRequest ι α β σ) : s.run (requests ++ [q]) = ((s.run requests).serve q).2 :=
  List.foldl_concat ..

end TableFamily

/-- Block `b` of table `k` is in use after some requests: one of them updated it, or it was in use
in a table when this table was copied into table `k`, and since then table `k` was neither cleared
nor overwritten. -/
inductive BlockInUse {ι α β σ : Type} (lengths : ι → Nat) :
    List (SlotRequest ι α β σ) → ι → Nat → Prop
  | updated {earlier later : List (SlotRequest ι α β σ)} {q : SlotRequest ι α β σ} {k : ι}
      {b : Nat} : b < lengths k → q.Updates k b → (∀ r ∈ later, ¬ r.Replaces lengths k) →
      BlockInUse lengths (earlier ++ q :: later) k b
  | inherited {earlier later : List (SlotRequest ι α β σ)} {k source : ι} {b : Nat} :
      lengths source = lengths k → BlockInUse lengths earlier source b →
      (∀ r ∈ later, ¬ r.Replaces lengths k) →
      BlockInUse lengths (earlier ++ .copy k source :: later) k b

namespace BlockInUse
variable {ι α β σ : Type} {lengths : ι → Nat} {requests : List (SlotRequest ι α β σ)}
  {q : SlotRequest ι α β σ} {k source : ι} {b : Nat}

theorem not_nil : ¬ BlockInUse lengths ([] : List (SlotRequest ι α β σ)) k b := by
  generalize h : ([] : List (SlotRequest ι α β σ)) = requests
  rintro (_ | _) <;> simp at h

/-- What is in use stays in use until a request replaces all blocks of the table. -/
theorem append (h : BlockInUse lengths requests k b) {later : List (SlotRequest ι α β σ)}
    (hkept : ∀ r ∈ later, ¬ r.Replaces lengths k) : BlockInUse lengths (requests ++ later) k b := by
  cases h with
  | updated hb hupdates hbetween =>
    rw [List.append_assoc, List.cons_append]
    exact .updated hb hupdates (List.forall_mem_append.mpr ⟨hbetween, hkept⟩)
  | inherited hlength hearlier hbetween =>
    rw [List.append_assoc, List.cons_append]
    exact .inherited hlength hearlier (List.forall_mem_append.mpr ⟨hbetween, hkept⟩)

/-- Where requests that end in `q` are split at one of them, this is `q` or `q` comes later. -/
theorem split_of_concat {earlier later : List (SlotRequest ι α β σ)} {r : SlotRequest ι α β σ}
    (h : requests ++ [q] = earlier ++ r :: later) :
    (requests = earlier ∧ q = r ∧ later = []) ∨
      ∃ between, requests = earlier ++ r :: between ∧ later = between ++ [q] := by
  rcases List.eq_nil_or_concat' later with rfl | ⟨between, last, rfl⟩
  · obtain ⟨hrequests, hq⟩ := List.append_inj' h rfl
    exact .inl ⟨hrequests, List.singleton_inj.mp hq, rfl⟩
  · rw [← List.cons_append, ← List.append_assoc] at h
    obtain ⟨hrequests, hq⟩ := List.append_inj' h rfl
    exact .inr ⟨between, hrequests, by rw [hq]⟩

theorem concat_iff (requests : List (SlotRequest ι α β σ)) (q : SlotRequest ι α β σ) (k : ι)
    (b : Nat) :
    BlockInUse lengths (requests ++ [q]) k b ↔
      (b < lengths k ∧ q.Updates k b) ∨
      (¬ q.Replaces lengths k ∧ BlockInUse lengths requests k b) ∨
      ∃ source, q = .copy k source ∧ lengths source = lengths k ∧
        BlockInUse lengths requests source b := by
  constructor
  · generalize hall : requests ++ [q] = all
    intro h
    cases h with
    | updated hb hupdates hlater =>
      rcases split_of_concat hall with ⟨rfl, rfl, rfl⟩ | ⟨between, rfl, rfl⟩
      · exact .inl ⟨hb, hupdates⟩
      · rw [List.forall_mem_append, List.forall_mem_singleton] at hlater
        exact .inr (.inl ⟨hlater.2, .updated hb hupdates hlater.1⟩)
    | inherited hlength hearlier hlater =>
      rcases split_of_concat hall with ⟨rfl, rfl, rfl⟩ | ⟨between, rfl, rfl⟩
      · exact .inr (.inr ⟨_, rfl, hlength, hearlier⟩)
      · rw [List.forall_mem_append, List.forall_mem_singleton] at hlater
        exact .inr (.inl ⟨hlater.2, .inherited hlength hearlier hlater.1⟩)
  · rintro (⟨hb, hupdates⟩ | ⟨hkept, h⟩ | ⟨source, rfl, hlength, h⟩)
    · exact .updated hb hupdates (List.forall_mem_nil _)
    · exact h.append (List.forall_mem_singleton.mpr hkept)
    · exact .inherited hlength h (List.forall_mem_nil _)

end BlockInUse

namespace TableFamily
variable {ι α β σ : Type} [DecidableEq ι]

/-- The allocated blocks are those that the requests have left in use. -/
theorem allocatedAt_run_iff (lengths : ι → Nat) (world : σ)
    (requests : List (SlotRequest ι α β σ)) (k : ι) (b : Nat) :
    (((empty lengths world).run requests).table k : BlockTable α).allocatedAt b = true ↔
      BlockInUse lengths requests k b := by
  -- From the end of the run: a copy asks for another table at the same time.
  induction requests using List.reverseRecOn generalizing k b with
  | nil =>
    have hstart : ((empty lengths world).table k : BlockTable α).allocatedAt b = false :=
      BlockTable.allocatedAt_empty (lengths k) b
    exact iff_of_false (Bool.eq_false_iff.mp hstart) BlockInUse.not_nil
  | append_singleton requests q ih =>
    have hlengths : ((empty lengths world).run requests : TableFamily ι α σ).lengths = lengths :=
      (lengths_run _ requests).trans (lengths_empty lengths world)
    rw [run_concat, BlockInUse.concat_iff]
    by_cases h : q.Replaces lengths k
    · rcases SlotRequest.replaces_iff.mp h with rfl | ⟨source, rfl, hlength⟩
      · rw [table_serve_clear, BlockTable.clear]
        simp [SlotRequest.Updates, SlotRequest.Replaces]
      · rw [table_serve_copy (by rw [hlengths, hlength]), ih]
        simp [SlotRequest.Updates, SlotRequest.Replaces, hlength]
    · have hcopy : ¬ ∃ source, q = .copy k source ∧ lengths source = lengths k ∧
          BlockInUse lengths requests source b := by
        rintro ⟨source, hq, hlength, -⟩
        exact h (SlotRequest.replaces_iff.mpr (.inr ⟨source, hq, hlength⟩))
      rw [allocatedAt_serve_iff (by rwa [hlengths]), ih, hlengths]
      simp only [h, hcopy, not_false_eq_true, true_and, or_false]

/-- Tables of any lengths answer like arrays with 1024 slots for each block, all of them empty in
the beginning, and hold the same after every run. They also use the functions of updates as often
and on the same contents, since the world, which only these functions change, is the same. As many
blocks of a table are allocated as were updated since it was last cleared, or were in use in the
table that was last copied into it. A copy between tables of one length goes block by block and
makes them equal. Later requests to one of them leave the other as it is, since no request changes
a table but the one that it is made to. -/
theorem tables_refine_arrays (lengths : ι → Nat) (world : σ)
    (requests : List (SlotRequest ι α β σ)) :
    let start : TableFamily ι α σ := empty lengths world
    let arrays : ArrayFamily ι α σ := .empty lengths world
    let s := start.run requests
    let a := arrays.run requests
    start.answers requests = arrays.answers requests ∧ s.world = a.world ∧
    (∀ k, (s.table k).length = lengths k ∧ (a.array k).size = 1024 * lengths k ∧
      ∀ i, (s.table k).slot i = a.look k i) ∧
    (∀ k, (s.table k).allocated = {b | BlockInUse lengths requests k b}.ncard) ∧
    (∀ k source, lengths source = lengths k →
      (s.table k).takeBlocks (s.table source) (lengths k) = s.table source ∧
      ∀ later : List (SlotRequest ι α β σ), (∀ q ∈ later, q.target? ≠ some k) →
        (s.run (.copy k source :: later)).table k = s.table source) ∧
    ∀ k (later : List (SlotRequest ι α β σ)), (∀ q ∈ later, q.target? ≠ some k) →
      (s.run later).table k = s.table k := by
  intro start arrays s a
  obtain ⟨hanswers, hflat⟩ := start.run_flat requests
  rw [show start.flat = arrays from flat_empty lengths world] at hanswers
  have hsame : s.flat = a := hflat.trans (congrArg (ArrayFamily.run · requests)
    (flat_empty lengths world))
  have hlengths : ∀ k, (s.table k).length = lengths k := congrFun
    ((start.lengths_run requests).trans (lengths_empty lengths world))
  refine ⟨hanswers, congrArg ArrayFamily.world hsame, fun k => ⟨hlengths k, ?_, fun i => ?_⟩,
    fun k => ?_, fun k source hlength => ⟨?_, fun later hlater => ?_⟩,
    fun k later hlater => table_run_of_ne hlater⟩
  · calc (a.array k).size
        = (s.flat.array k).size := by rw [hsame]
      _ = (s.table k).capacity := (s.table k).size_flat
      _ = 1024 * lengths k := by rw [BlockTable.capacity, hlengths, Nat.mul_comm]; rfl
  · rw [← hsame, look_flat]
  · rw [← BlockTable.ncard_allocatedAt]
    simp only [allocatedAt_run_iff, s, start]
  · rw [← hlengths k, BlockTable.takeBlocks_of_length]
    rw [hlengths, hlengths, hlength]
  · have hcopied : (s.table source).length = (s.table k).length := by
      rw [hlengths, hlengths, hlength]
    exact (table_run_of_ne hlater).trans (table_serve_copy hcopied)

/-- A copy takes over that a block is not allocated, and keeps what is taken out of the original
later. A slot right behind the last block is not updated. -/
theorem copy_at_border_of_block :
    let take (old : Option Nat) (uses : Nat) := ((none : Option Nat), old, uses + 1)
    let lengths (_ : Bool) : Nat := 2
    let requests := [.write false 1024 8, .write true 1023 3, .update false 2048 take]
    let later := [.update false 1024 take]
    let start : TableFamily Bool Nat Nat := empty lengths 0
    let s := start.run requests
    let final := s.run (.copy true false :: later)
    (lengths false = lengths true ∧ ∀ q ∈ later, q.target? ≠ some true) ∧
    start.answers requests = [.content none, .content none, .result none] ∧ s.world = 0 ∧
    (s.table true).slot 1023 = some 3 ∧
    {b | BlockInUse lengths requests true b}.ncard = 1 ∧
    final.table true = s.table false ∧ (final.table true).slot 1024 = some 8 ∧
    (final.table true).slot 1023 = none ∧ (final.table false).slot 1024 = none ∧
    final.world = 1 ∧ (final.table true).allocated = 1 := by
  intro take lengths requests later start s final
  have hlater : ∀ q ∈ later, q.target? ≠ some true := by simp [later, SlotRequest.target?]
  have hsame : lengths false = lengths true := rfl
  obtain ⟨hanswers, hworld, hslots, hallocated, hcopy, -⟩ :=
    tables_refine_arrays lengths 0 requests
  simp only [final, s, start]
  exact ⟨⟨hsame, hlater⟩, hanswers.trans (by decide +kernel), hworld.trans (by decide +kernel),
    ((hslots true).2.2 1023).trans (by decide +kernel),
    (hallocated true).symm.trans (by decide +kernel), (hcopy true false hsame).2 later hlater,
    by decide +kernel, by decide +kernel, by decide +kernel, by decide +kernel,
    by decide +kernel⟩

end TableFamily
end ArchState
