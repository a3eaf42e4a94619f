import ArchState.Proofs.Machine.Request
import ArchState.Proofs.Register.ZeroRegister

/-! # Register 0 of a machine

The integer registers of a machine are asked for nothing that the register file could not be asked
for alone, whatever is selected, restored, undone or reset. So register 0 stays hard-wired to zero
in every run of a machine as it does in a run of the file.
-/
namespace ArchState.Machine
open Integer
variable {m : Machine} {request : Request}

/-- Whether a request is a write through the handle of register 0. -/
def Request.writesZeroCell : Request → Bool
  | integers request => request.writesZeroCell
  | _ => false

/-- A machine that is reached from a new one without a write through the handle of register 0. -/
inductive Sealed : Machine → Prop where
  | initial (harts : Nat) : Sealed (initial harts)
  | built {s : Settings} {m : Machine} : ofSettings s = .ok m → Sealed m
  | step {m : Machine} {request : Request} :
      Sealed m → request.writesZeroCell = false → Sealed (m.after request)

theorem sealed_laidOut (h : m.integers.Sealed) (catalog : Catalog) :
    (m.laidOut catalog).integers.Sealed := by
  have happlied : (m.integers.applyLayout catalog.current).Sealed :=
    h.serve (.applyLayout catalog.current) rfl
  exact happlied.serve .reset rfl

theorem sealed_select (h : m.integers.Sealed) {identifier : String} {s : Step Machine Bool}
    (hs : m.select identifier = .ok s) : s.state.integers.Sealed := by
  rcases state_of_select hs with hsame | ⟨catalog, hlaid⟩
  · rw [hsame]
    exact h
  · rw [hlaid]
    exact sealed_laidOut h catalog

theorem sealed_restore (h : m.integers.Sealed) (record : UndoRecord) :
    (m.restore record).state.integers.Sealed := by
  cases record with
  | register n v => exact h.restore n v
  | programCounter v => exact h.restorePc v
  | floatRegister n v | controlRegister n v => exact h
  | word a v | half a v | byte a v | rawWord a v | doubleWord a d => exact h

theorem sealed_backstep (h : m.integers.Sealed) : m.backstep.state.integers.Sealed := by
  unfold backstep
  split
  · exact h
  · exact sealed_restore (m := { m with log := some _ }) h _

/-- A request to a machine is a request to its integer registers or leaves them alone. -/
theorem sealed_after (h : m.integers.Sealed) (hr : request.writesZeroCell = false) :
    (m.after request).integers.Sealed := by
  cases request with
  | integers request => exact h.serve request hr
  | attach sink => exact h.serve (.attach sink) rfl
  | enter symbols => exact h.serve (.enter m.startAtMain symbols _) rfl
  | restore record => exact sealed_restore h record
  | backstep => exact sealed_backstep h
  | select identifier =>
    rcases m.after_select identifier with ⟨hsame, -⟩ | ⟨catalog, hlaid, -⟩
    · rw [hsame]
      exact h
    · rw [hlaid]
      exact sealed_laidOut h catalog
  | register l =>
    change ((m.register l).toOption.getD m).integers.Sealed
    rw [register]
    cases m.catalog.register l <;> exact h
  | reset =>
    change m.reset.state.integers.Sealed
    rw [reset_eq]
    exact h.serve .reset rfl
  | _ => exact h

theorem sealed_built {s : Settings} (h : ofSettings s = .ok m) : m.integers.Sealed := by
  obtain ⟨n, selected, hregister, hselect, rfl⟩ := ofSettings_eq_ok h
  have hn : n.integers.Sealed := by
    rw [(registerAll_frame hregister).1]
    exact .initial _
  have hselected := sealed_select hn hselect
  dsimp only
  split
  · exact hselected.serve (.attach (some .log)) rfl
  · exact hselected

theorem Sealed.integers (h : m.Sealed) : m.integers.Sealed := by
  induction h with
  | initial harts => exact .initial _
  | built hbuilt => exact sealed_built hbuilt
  | step _ hr ih => exact sealed_after ih hr

/-- A write to register 0 is not noticed anywhere in the machine. -/
theorem mutate_register_zero (m : Machine) {key : RegisterKey}
    (hkey : find? key = some (Integer.register 0)) (value : UInt64) :
    m.mutate (.integer key value) = .quiet (.ok (some 0)) m := by
  rw [mutate, IntegerFile.update_zero hkey, inIntegers, whole_of_silent rfl]
  rfl

/-- A record of register 0 is written back without a trace. -/
theorem restore_register_zero (m : Machine) (value : UInt64) :
    m.restore (.register 0 value) = .quiet (.ok ()) m := by
  have hfound : block.byNumber? 0 = some (Integer.register 0) := by decide
  rcases m.integers.restore_cases 0 value with ⟨-, hsame⟩ | ⟨-, hsame⟩ | ⟨i, hi, hne, -⟩
  · rw [restore, hsame, inIntegers, whole_of_silent rfl]
    rfl
  · rw [restore, hsame, inIntegers, whole_of_silent rfl]
    rfl
  · exact absurd (Option.some.inj (hi.symm.trans hfound)) hne

/-- A record of another register changes this register alone. -/
theorem restore_register (m : Machine) {n : Int} {i : Integer.spec.Position}
    (hfound : block.byNumber? n = some i) (hi : i ≠ Integer.register 0) (value : UInt64) :
    (m.restore (.register n value)).answer = .ok () ∧
      (m.restore (.register n value)).state = { m with integers := m.integers.put i value } := by
  rcases m.integers.restore_cases n value with ⟨hnone, -⟩ | ⟨hzero, -⟩ | ⟨j, hj, -, hput⟩
  · cases hnone.symm.trans hfound
  · exact absurd (Option.some.inj (hfound.symm.trans hzero)) hi
  · obtain rfl := Option.some.inj (hj.symm.trans hfound)
    rw [restore, hput, inIntegers,
      whole_of_silent (m.integers.bank.recordsTo_notify .log j .write)]
    exact ⟨rfl, rfl⟩

/-- Register 0 is hard-wired to zero, in the register file and in a machine. Whatever is written by
number or by name, put back by records, undone, selected or reset, register 0 shows zero, and a
write to it answers zero, tells nobody, records nothing and changes nothing. A write to any other
register answers what it has shown, stores all 64 bits and changes nothing else. -/
theorem zero_register_hardwired :
    (∀ f : IntegerFile, f.Sealed → f.Hardwired) ∧
    ∀ m : Machine, m.Sealed → m.integers.Hardwired ∧
      (∀ key value, find? key = some (Integer.register 0) →
        m.mutate (.integer key value) = .quiet (.ok (some 0)) m) ∧
      (∀ value, m.restore (.register 0 value) = .quiet (.ok ()) m) ∧
      ∀ n i value, block.byNumber? n = some i → i ≠ Integer.register 0 →
        (m.restore (.register n value)).answer = .ok () ∧
          (m.restore (.register n value)).state =
            { m with integers := m.integers.put i value } := by
  refine ⟨fun f hf => hf.holdsZero.hardwired, ?_⟩
  intro m hm
  refine ⟨hm.integers.holdsZero.hardwired, ?_, m.restore_register_zero, ?_⟩
  · intro key value hkey
    exact m.mutate_register_zero hkey value
  · intro n i value hfound hi
    exact m.restore_register hfound hi value

/-- Register 0 is written under two names and by a record, and shows zero after the switch to
another layout. Writing the frame pointer then reaches register 8 with all 64 bits. -/
theorem zero_register_shows_zero :
    let m := ((((initial 1).after (.integers (.update (.name "zero") 5))).after
      (.integers (.update (.name "x0") 6))).after (.restore (.register 0 7))).after
        (.select "CompactTextAtZero")
    m.Sealed ∧ (m.integers.value (.name "x0")).answer = some 0 ∧
      m.integers.update (.name "zero") 8 = .quiet (some 0) m.integers ∧
      (m.integers.update (.name "fp") 0x100000005).state.bank.read (Integer.register 8) =
        0x100000005 ∧
      (m.restore (.register 2 9)).state.integers.bank.read (Integer.register 0) = 0 := by
  intro m
  have hm : m.Sealed := .step (.step (.step (.step (.initial 1) rfl) rfl) rfl) rfl
  obtain ⟨-, hmachine⟩ := zero_register_hardwired
  obtain ⟨hwired, -⟩ := hmachine m hm
  have hfp : Integer.find? (.name "fp") = some (Integer.register 8) := by decide
  obtain ⟨-, -, hreads⟩ := hwired.written _ _ 0x100000005 hfp (by decide)
  have hnext : (m.after (.restore (.register 2 9))).Sealed := hm.step rfl
  refine ⟨hm, hwired.value _ (by decide +kernel), hwired.discarded _ 8 (by decide +kernel), ?_,
    (hmachine _ hnext).1.read⟩
  rw [hreads, if_pos rfl]

end ArchState.Machine
