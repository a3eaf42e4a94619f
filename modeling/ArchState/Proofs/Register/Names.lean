import ArchState.Proofs.Register.Undo
import ArchState.Proofs.Text.Numeral
import Mathlib.Data.List.Nodup

/-! # Names of registers

A block takes a word of two bytes or more for the first register of this name or, if there is none,
for the register whose number follows the letter of the block as a canonical numeral. In the
register files a name stands for the number of the register that it finds.
-/
namespace ArchState

namespace RegisterBlock
variable {spec : BankSpec} {block : RegisterBlock spec} {s : String} {i : spec.Position} {k : Int}

/-- The letter of a block followed by a number. -/
def numbered (block : RegisterBlock spec) (n : Nat) : String :=
  String.singleton block.letter ++ toString n

def DistinctNumbers (block : RegisterBlock spec) : Prop :=
  (block.members.map fun i => (spec.cell i).number).Nodup

instance : Decidable block.DistinctNumbers := inferInstanceAs (Decidable (List.Nodup _))

/-- Whether `s` is a word for the register at `i`. -/
inductive Accepts (block : RegisterBlock spec) (s : String) (i : spec.Position) : Prop where
  /-- It is the first register in the list that has this name. -/
  | named (before after : List spec.Position) (listed : block.members = before ++ i :: after)
      (name : (spec.cell i).name = s) (first : ∀ j ∈ before, (spec.cell j).name ≠ s)
  /-- No register has this name, and it is the number of the register behind the letter. -/
  | numbered (n : Nat) (unnamed : ∀ j ∈ block.members, (spec.cell j).name ≠ s)
      (bound : n < 0x80000000) (word : s = block.numbered n) (listed : i ∈ block.members)
      (number : (spec.cell i).number = n)

theorem canonical?_eq_some_iff {digits : List Char} :
    canonical? digits = some k ↔
      ∃ n : Nat, n < 0x80000000 ∧ digits = Nat.toDigits 10 n ∧ k = n := by
  simp only [Text.eq_toDigits_iff]
  rw [canonical?]
  by_cases hlead : 1 < digits.length ∧ digits.head? = some '0'
  · simp [hlead]
  · rw [if_neg (by simpa using hlead)]
    cases hvalue : Text.decimal? digits with
    | none => simp
    | some n =>
      by_cases hn : n < 0x80000000
      · simp [hn, hlead, eq_comm]
      · simp [hn]

theorem eq_numbered_iff {n : Nat} :
    s = block.numbered n ↔ s.toList = block.letter :: Nat.toDigits 10 n := by
  rw [← String.toList_inj, numbered, String.toList_append, String.toList_singleton,
    Nat.toString_eq_repr, Nat.toList_repr]
  rfl

theorem numeral?_eq_some_iff :
    block.numeral? s = some k ↔ ∃ n : Nat, n < 0x80000000 ∧ s = block.numbered n ∧ k = n := by
  simp only [eq_numbered_iff]
  rw [numeral?]
  cases s.toList with
  | nil => simp
  | cons c digits =>
    by_cases hc : c = block.letter
    · simp [hc, canonical?_eq_some_iff]
    · simp [hc]

theorem byNumber?_eq_some_iff (h : block.DistinctNumbers) :
    block.byNumber? k = some i ↔ i ∈ block.members ∧ (spec.cell i).number = k := by
  constructor
  · intro hfind
    exact ⟨mem_of_byNumber? hfind, by simpa using List.find?_some hfind⟩
  · rintro ⟨hi, rfl⟩
    cases hfind : block.byNumber? (spec.cell i).number with
    | none =>
      have hnot := List.find?_eq_none.mp hfind i (List.mem_reverse.mpr hi)
      simp at hnot
    | some j =>
      have hnumber : (spec.cell j).number = (spec.cell i).number := by
        simpa using List.find?_some hfind
      rw [List.inj_on_of_nodup_map h (mem_of_byNumber? hfind) hi hnumber]

theorem find?_name_eq_some_iff :
    (block.members.find? fun i => (spec.cell i).name == s) = some i ↔
      ∃ before after, block.members = before ++ i :: after ∧ (spec.cell i).name = s ∧
        ∀ j ∈ before, (spec.cell j).name ≠ s := by
  rw [List.find?_eq_some_iff_append]
  constructor
  · rintro ⟨hname, before, after, hlisted, hfirst⟩
    exact ⟨before, after, hlisted, by simpa using hname, by simpa using hfirst⟩
  · rintro ⟨before, after, hlisted, hname, hfirst⟩
    exact ⟨by simpa using hname, before, after, hlisted, by simpa using hfirst⟩

/-- The number of a register that is found finds it again. -/
theorem find?_number (h : block.DistinctNumbers) (key : RegisterKey) (i : spec.Position)
    (hfind : block.find? key = some i) : block.find? (.number (spec.cell i).number) = some i :=
  (byNumber?_eq_some_iff h).mpr ⟨mem_of_find? hfind, rfl⟩

/-- A block whose registers have distinct numbers finds a register by its words and no other ones.
-/
theorem byName?_eq_some_iff (h : block.DistinctNumbers) :
    block.byName? s = some i ↔ 2 ≤ s.utf8ByteSize ∧ block.Accepts s i := by
  rw [byName?]
  by_cases hshort : s.utf8ByteSize < 2
  · have hlong : ¬ 2 ≤ s.utf8ByteSize := by omega
    simp [hshort, hlong]
  have hlong : 2 ≤ s.utf8ByteSize := by omega
  rw [if_neg hshort, and_iff_right hlong]
  cases hfind : block.members.find? fun i => (spec.cell i).name == s with
  | some j =>
    obtain ⟨before, after, hlisted, hname, hfirst⟩ := find?_name_eq_some_iff.mp hfind
    constructor
    · intro hji
      obtain rfl := Option.some.inj hji
      exact .named before after hlisted hname hfirst
    · rintro (⟨before, after, hlisted, hname, hfirst⟩ | ⟨n, hunnamed⟩)
      · exact hfind.symm.trans
          (find?_name_eq_some_iff.mpr ⟨before, after, hlisted, hname, hfirst⟩)
      · exact absurd hname (hunnamed j (List.mem_of_find?_eq_some hfind))
  | none =>
    have hunnamed : ∀ j ∈ block.members, (spec.cell j).name ≠ s := by
      simpa using List.find?_eq_none.mp hfind
    constructor
    · intro hnumbered
      obtain ⟨k, hk, hfound⟩ := Option.bind_eq_some_iff.mp hnumbered
      obtain ⟨n, hn, hword, rfl⟩ := numeral?_eq_some_iff.mp hk
      obtain ⟨hi, hnumber⟩ := (byNumber?_eq_some_iff h).mp hfound
      exact .numbered n hunnamed hn hword hi hnumber
    · rintro (⟨before, after, hlisted, hname, -⟩ | ⟨n, -, hn, hword, hi, hnumber⟩)
      · exact absurd hname (hunnamed i (by simp [hlisted]))
      · refine Option.bind_eq_some_iff.mpr ⟨n, numeral?_eq_some_iff.mpr ⟨n, hn, hword, rfl⟩, ?_⟩
        exact (byNumber?_eq_some_iff h).mpr ⟨hi, hnumber⟩

/-- A name that is the word for the number of another register, and one of a single character. -/
def shadowing : BankSpec where
  cells := #[⟨"x5", 7, .plain⟩, ⟨"five", 5, .plain⟩, ⟨"ß", 40, .plain⟩]
  grounded := by decide

example :
    let block : RegisterBlock shadowing := ⟨'x', List.finRange _⟩
    block.DistinctNumbers ∧
      ["x5", "x7", "x05", "x40", "x4294967336", "ß", "x"].map block.byName? =
        [some ⟨0, by decide⟩, some ⟨0, by decide⟩, none, some ⟨2, by decide⟩, none,
          some ⟨2, by decide⟩, none] := by
  decide +kernel

end RegisterBlock

namespace Integer
variable {s : String} {i : spec.Position}

theorem distinctNumbers_block : block.DistinctNumbers := by decide

theorem find?_name_of_ne (h : s ≠ "fp") : find? (.name s) = block.byName? s := by
  unfold find?
  split
  · rename_i heq
    cases heq
    exact absurd rfl h
  · rfl

theorem exists_register_of_mem : ∀ i ∈ block.members, ∃ n : Fin 32, i = register n := by decide

theorem name_register : ∀ n : Fin 32,
    names[n.val]? = some (spec.cell (register n)).name := by decide

theorem number_register : ∀ n : Fin 32, (spec.cell (register n)).number = n.val := by decide

theorem find?_names : ∀ n : Fin 32, ∀ s ∈ names[n.val]?, find? (.name s) = some (register n) := by
  decide +kernel

theorem find?_numbered : ∀ n : Fin 32,
    find? (.name (block.numbered n.val)) = some (register n) := by decide +kernel

/-- The words for integer registers. -/
theorem find?_name_eq_some_iff :
    find? (.name s) = some i ↔ (s = "fp" ∧ i = register 8) ∨
      ∃ n : Fin 32, i = register n ∧ (names[n.val]? = some s ∨ s = "x" ++ toString n.val) := by
  constructor
  · intro hfind
    by_cases hfp : s = "fp"
    · subst hfp
      exact .inl ⟨rfl, (Option.some.inj hfind).symm⟩
    obtain ⟨n, rfl⟩ := exists_register_of_mem i (mem_of_find? hfind)
    rw [find?_name_of_ne hfp, RegisterBlock.byName?_eq_some_iff distinctNumbers_block] at hfind
    refine .inr ⟨n, rfl, ?_⟩
    obtain ⟨-, ⟨before, after, -, hname, -⟩ | ⟨m, -, -, hword, -, hnumber⟩⟩ := hfind
    · left
      rw [name_register, hname]
    · right
      rw [number_register] at hnumber
      obtain rfl : n.val = m := by omega
      exact hword
  · rintro (⟨rfl, rfl⟩ | ⟨n, rfl, hname | rfl⟩)
    · rfl
    · exact find?_names n s hname
    · exact find?_numbered n

end Integer

/-- Whether an operation on a register does with a name what it does with the number that the name
stands for, and comes to `nothing` if the name does not stand for a number. -/
def FollowsNumber {γ : Type} (numberOf? : String → Option Int) (nothing : γ)
    (operation : RegisterKey → γ) : Prop :=
  ∀ s, operation (.name s) =
    match numberOf? s with
    | some n => operation (.number n)
    | none => nothing

/-- An operation that finds its register by a key follows the number of the register. -/
theorem followsNumber_of_find {γ : Type} {spec : BankSpec}
    {find? : RegisterKey → Option spec.Position}
    (hnumber : ∀ key i, find? key = some i → find? (.number (spec.cell i).number) = some i)
    {nothing : γ} {operation : RegisterKey → γ}
    (hfound : ∀ key other, find? key = find? other → operation key = operation other)
    (hnone : ∀ key, find? key = none → operation key = nothing) :
    FollowsNumber (fun s => (find? (.name s)).map fun i => (spec.cell i).number) nothing
      operation := by
  intro s
  cases hfind : find? (.name s) with
  | none => simpa [hfind] using hnone _ hfind
  | some i =>
    have hsame : find? (.name s) = find? (.number (spec.cell i).number) := by
      rw [hfind, hnumber _ i hfind]
    simpa [hfind] using hfound _ _ hsame

theorem FollowsNumber.map {γ δ : Type} {numberOf? : String → Option Int} {nothing : γ}
    {operation : RegisterKey → γ} (h : FollowsNumber numberOf? nothing operation) (g : γ → δ) :
    FollowsNumber numberOf? (g nothing) fun key => g (operation key) := by
  intro s
  simp only [h s]
  cases numberOf? s <;> rfl

/-- Reading a register of a block by its name is reading it by its number. -/
theorem RegisterBlock.followsNumber_value {spec : BankSpec} {block : RegisterBlock spec}
    (h : block.DistinctNumbers) (b : Bank spec) :
    FollowsNumber (fun s => (block.find? (.name s)).map fun i => (spec.cell i).number) ⟨none, []⟩
      (block.value b) :=
  followsNumber_of_find (find?_number h) (fun _ _ hfind => by simp only [value, hfind])
    fun _ hfind => by simp only [value, hfind]

namespace IntegerFile
open Integer

theorem find?_number (key : RegisterKey) (i : spec.Position) (h : find? key = some i) :
    find? (.number (spec.cell i).number) = some i :=
  (RegisterBlock.byNumber?_eq_some_iff distinctNumbers_block).mpr ⟨mem_of_find? h, rfl⟩

theorem followsNumber_update (f : IntegerFile) (value : UInt64) :
    FollowsNumber numberOf? (.quiet none f) fun key => f.update key value :=
  followsNumber_of_find find?_number (fun _ _ h => by simp only [update, h])
    fun _ h => by simp only [update, h]

theorem followsNumber_value (f : IntegerFile) : FollowsNumber numberOf? ⟨none, []⟩ f.value :=
  followsNumber_of_find find?_number (fun _ _ h => by simp only [value, h])
    fun _ h => by simp only [value, h]

end IntegerFile

theorem Floating.distinctNumbers_block : Floating.block.DistinctNumbers := by decide

theorem Control.distinctNumbers_block : Control.block.DistinctNumbers := by decide

namespace FloatFile
open Floating

theorem followsNumber_updateSingle (f : FloatFile) (bits : UInt32) :
    FollowsNumber numberOf? (.quiet none f) fun key => f.updateSingle key bits :=
  followsNumber_of_find (RegisterBlock.find?_number distinctNumbers_block)
    (fun _ _ h => by simp only [updateSingle, h])
    fun _ h => by simp only [updateSingle, h, write_none]

end FloatFile

namespace ControlFile
open Control

theorem followsNumber_update (f : ControlFile) (value : UInt64) :
    FollowsNumber numberOf? (.quiet none f) fun key => f.update key value :=
  followsNumber_of_find (RegisterBlock.find?_number distinctNumbers_block)
    (fun _ _ h => by simp only [update, h]) fun _ h => by simp only [update, h]

theorem followsNumber_backdoor (f : ControlFile) (value : UInt64) :
    FollowsNumber numberOf? (none, f) fun key => f.backdoor key value :=
  followsNumber_of_find (RegisterBlock.find?_number distinctNumbers_block)
    (fun _ _ h => by simp only [backdoor, h]) fun _ h => by simp only [backdoor, h]

end ControlFile

/-- A block whose registers have distinct numbers finds a register by a word of two bytes or more if
this is the name of the register or the letter of the block and the canonical numeral of its number,
where names go first. So the words for an integer register are its name, `x` and its number, and
`fp` for register 8. In the register files operations on a name are operations on the number of the
register that the name finds, and come to nothing if it finds none. -/
theorem words_find_registers :
    (∀ (spec : BankSpec) (block : RegisterBlock spec), block.DistinctNumbers →
      ∀ s i, block.byName? s = some i ↔ 2 ≤ s.utf8ByteSize ∧ block.Accepts s i) ∧
    (∀ s i, Integer.find? (.name s) = some i ↔ (s = "fp" ∧ i = Integer.register 8) ∨
      ∃ n : Fin 32, i = Integer.register n ∧
        (Integer.names[n.val]? = some s ∨ s = "x" ++ toString n.val)) ∧
    (∀ f : IntegerFile,
      (∀ value, FollowsNumber IntegerFile.numberOf? (.quiet none f) fun key => f.update key value) ∧
        FollowsNumber IntegerFile.numberOf? ⟨none, []⟩ f.value ∧
        FollowsNumber IntegerFile.numberOf? ⟨none, []⟩ f.signedLow) ∧
    (∀ f : FloatFile,
      (∀ bits, FollowsNumber FloatFile.numberOf? (.quiet none f)
          fun key => f.updateSingle key bits) ∧
        FollowsNumber FloatFile.numberOf? ⟨none, []⟩ f.value ∧
        FollowsNumber FloatFile.numberOf? ⟨none, []⟩ f.single) ∧
    ∀ f : ControlFile,
      (∀ value, FollowsNumber ControlFile.numberOf? (.quiet none f) fun key => f.update key value) ∧
        (∀ value, FollowsNumber ControlFile.numberOf? (none, f) fun key => f.backdoor key value) ∧
        FollowsNumber ControlFile.numberOf? ⟨none, []⟩ f.value ∧
        FollowsNumber ControlFile.numberOf? ⟨none, []⟩ f.signedLow := by
  refine ⟨fun spec block h s i => RegisterBlock.byName?_eq_some_iff h,
    fun s i => Integer.find?_name_eq_some_iff, fun f => ?_, fun f => ?_, fun f => ?_⟩
  · exact ⟨f.followsNumber_update, f.followsNumber_value,
      f.followsNumber_value.map fun r => r.map (·.map DoubleWord.signedLow)⟩
  · have hvalue : FollowsNumber FloatFile.numberOf? ⟨none, []⟩ f.value :=
      RegisterBlock.followsNumber_value Floating.distinctNumbers_block f.bank
    exact ⟨f.followsNumber_updateSingle, hvalue, hvalue.map fun r => r.map (·.map nanUnbox)⟩
  · have hvalue : FollowsNumber ControlFile.numberOf? ⟨none, []⟩ f.value :=
      RegisterBlock.followsNumber_value Control.distinctNumbers_block f.bank
    exact ⟨f.followsNumber_update, f.followsNumber_backdoor, hvalue,
      hvalue.map fun r => r.map (·.map DoubleWord.signedLow)⟩

end ArchState
