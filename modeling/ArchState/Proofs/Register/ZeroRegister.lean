import ArchState.Proofs.Register.ControlRun

/-! # Register 0

Register 0 holds zero and is reset to zero, and no write to the register file reaches it. Only the
handle of its cell does, so that as long as this handle is not used for a write, register 0 shows
zero. A write to any other register stores all 64 bits there and changes nothing else.
-/
namespace ArchState

namespace Bank
variable {spec : BankSpec} {b : Bank spec} {i j : spec.Position}

theorem read_plain (h : (spec.cell i).kind = .plain) : b.read i = b.values.get i := by
  have hview : spec.isView i = false := by rw [BankSpec.isView, h]
  exact BankSpec.look_of_not_view hview b.values

/-- A write to a plain cell stores the whole value and answers what the cell has shown. -/
theorem set_plain (h : (spec.cell i).kind = .plain) (value : UInt64) :
    b.set i value =
      ⟨b.read i, { b with values := b.values.set i value i.isLt }, b.notify i .write⟩ := by
  have hview : spec.isView i = false := by rw [BankSpec.isView, h]
  have howner := BankSpec.owner_of_not_view hview
  have hprevious : spec.previous i (b.values.get i) = b.values.get i := by
    rw [BankSpec.previous, h]
  have hstore : b.store i true value = (b.read i, { b with values := b.values.set i value }) := by
    simp only [store, howner, BankSpec.stored_plain h, read_plain h]
    exact congrArg (Prod.mk · _) hprevious
  rw [set_of_writable (BankSpec.isReadOnly_plain h), hstore]
  rfl

theorem get_values_set (b : Bank spec) (i j : spec.Position) (value : UInt64) :
    (b.values.set i value i.isLt).get j = if i = j then value else b.values.get j := by
  by_cases h : i = j
  · subst h
    rw [if_pos rfl]
    exact Vector.getElem_set_self ..
  · rw [if_neg h]
    exact Vector.getElem_set_ne i.isLt j.isLt fun hij => h (Fin.ext hij)

theorem values_observe (b : Bank spec) (i : spec.Position) (id : ObserverId) :
    (b.observe i id).values = b.values := rfl

theorem values_unobserve (b : Bank spec) (i : spec.Position) (id : ObserverId) :
    (b.unobserve i id).2.values = b.values := rfl

theorem resets_setResetValue_of_ne (b : Bank spec) (h : i ≠ j) (value : UInt64) :
    (b.setResetValue i value).resets.get j = b.resets.get j :=
  Vector.getElem_set_ne i.isLt j.isLt fun hij => h (Fin.ext hij)

end Bank

namespace RegisterBlock
variable {spec : BankSpec} (block : RegisterBlock spec)

theorem values_observe (b : Bank spec) (id : ObserverId) :
    (block.observe b id).values = b.values :=
  Bank.foldl_keeps (f := fun b i => b.observe i id) Bank.values (fun b i => b.values_observe i id) b
    block.members

theorem values_unobserve (b : Bank spec) (id : ObserverId) :
    (block.unobserve b id).values = b.values :=
  Bank.foldl_keeps (f := fun b i => (b.unobserve i id).2) Bank.values
    (fun b i => b.values_unobserve i id) b block.members

end RegisterBlock

theorem Integer.number_eq_zero_iff : ∀ i : Integer.spec.Position,
    (Integer.spec.cell i).number = 0 ↔ i = Integer.register 0 := by decide

/-- Whether a request changes what a cell holds or is reset to, by its handle. -/
def CellRequest.writes : CellRequest → Bool
  | set _ | backdoor _ | changeReset _ => true
  | _ => false

/-- Whether a request is a write through the handle of register 0. -/
def IntegerRequest.writesZeroCell : IntegerRequest → Bool
  | cell i request => (Integer.spec.cell i).number == 0 && request.writes
  | _ => false

/-- Whether a request moves the program counter. -/
def IntegerRequest.movesPc : IntegerRequest → Bool
  | setPc _ | placePc _ | incrementPc | enter _ _ _ => true
  | _ => false

namespace IntegerFile
open Integer
variable {f : IntegerFile} {key : RegisterKey} {i j : spec.Position} {value : UInt64}

/-- The file with a value stored in one register and nothing else changed. -/
def put (f : IntegerFile) (i : spec.Position) (value : UInt64) : IntegerFile :=
  { f with bank := { f.bank with values := f.bank.values.set i value } }

theorem read_eq_get (f : IntegerFile) (i : spec.Position) :
    f.bank.read i = f.bank.values.get i := Bank.read_plain (kind_plain i)

theorem read_put (f : IntegerFile) (i j : spec.Position) (value : UInt64) :
    (f.put i value).bank.read j = if i = j then value else f.bank.read j := by
  rw [read_eq_get, read_eq_get]
  exact f.bank.get_values_set i j value

theorem set_eq_put (f : IntegerFile) (i : spec.Position) (value : UInt64) :
    (f.bank.set i value).within (fun bank => { f with bank }) =
      ⟨f.bank.read i, f.put i value, f.bank.notify i .write⟩ := by
  rw [Bank.set_plain (kind_plain i)]
  rfl

theorem write_zero (f : IntegerFile) (value : UInt64) :
    f.write (register 0) value = .quiet 0 f := by
  rw [write, if_pos ((number_eq_zero_iff _).mpr rfl)]

theorem write_of_ne (h : i ≠ register 0) (value : UInt64) :
    f.write i value = ⟨f.bank.read i, f.put i value, f.bank.notify i .write⟩ := by
  rw [write, if_neg fun h0 => h ((number_eq_zero_iff i).mp h0), set_eq_put]

theorem update_zero (h : find? key = some (register 0)) (value : UInt64) :
    f.update key value = .quiet (some 0) f := update_of_zero h rfl value

theorem update_of_ne (h : find? key = some i) (hi : i ≠ register 0) (value : UInt64) :
    f.update key value = ⟨some (f.bank.read i), f.put i value, f.bank.notify i .write ++
      Sink.signals f.sink (.register (spec.cell i).number (f.bank.read i))⟩ := by
  rw [update_of_some h fun h0 => hi ((number_eq_zero_iff i).mp h0), Bank.set_plain (kind_plain i)]
  rfl

/-- What writing a register back leaves. A number that no register has is ignored. -/
theorem restore_cases (f : IntegerFile) (number : Int) (value : UInt64) :
    (block.byNumber? number = none ∧ f.restore number value = .quiet () f) ∨
    (block.byNumber? number = some (register 0) ∧ f.restore number value = .quiet () f) ∨
    ∃ i, block.byNumber? number = some i ∧ i ≠ register 0 ∧
      f.restore number value = ⟨(), f.put i value, f.bank.notify i .write⟩ := by
  rw [restore]
  cases hfound : block.byNumber? number with
  | none => exact .inl ⟨rfl, rfl⟩
  | some i =>
    by_cases hi : i = register 0
    · subst hi
      refine .inr (.inl ⟨rfl, ?_⟩)
      dsimp only
      rw [write_zero]
      rfl
    · refine .inr (.inr ⟨i, rfl, hi, ?_⟩)
      dsimp only
      rw [write_of_ne hi]
      rfl

theorem restorePc_eq_put (f : IntegerFile) (value : UInt64) :
    f.restorePc value =
      ⟨f.bank.read programCounter, f.put programCounter value,
        f.bank.notify programCounter .write⟩ := f.set_eq_put programCounter value

/-- The program counter is moved without a change of any register of the block. -/
theorem state_of_movesPc (f : IntegerFile) {request : IntegerRequest} (h : request.movesPc = true) :
    ∃ a : UInt32, (f.serve request).state = f.put programCounter a.toUInt64 := by
  have hrestore : ∀ a : UInt32, (f.restorePc a.toUInt64).state = f.put programCounter a.toUInt64 :=
    fun a => congrArg Step.state (f.restorePc_eq_put a.toUInt64)
  cases request with
  | setPc a => exact ⟨a, hrestore a⟩
  | placePc a => exact ⟨a, hrestore a⟩
  | incrementPc => exact ⟨_, hrestore _⟩
  | enter startAtMain symbols inText => exact ⟨_, hrestore _⟩
  | _ => cases h

/-- Register 0 holds zero, and a reset leaves it so. -/
structure HoldsZero (f : IntegerFile) : Prop where
  value : f.bank.values.get (register 0) = 0
  resetValue : f.bank.resets.get (register 0) = 0

theorem holdsZero_ofLayout (l : Layout) : (ofLayout l).HoldsZero := ⟨rfl, rfl⟩

namespace HoldsZero

theorem put (h : f.HoldsZero) (hi : i ≠ register 0) (value : UInt64) :
    (f.put i value).HoldsZero where
  value := by
    refine (f.bank.get_values_set i (register 0) value).trans ?_
    rw [if_neg hi, h.value]
  resetValue := h.resetValue

theorem reset (h : f.HoldsZero) : f.reset.HoldsZero where
  value := by
    rw [bank_reset, Bank.values_foldl_reset_of_mem f.bank (by decide) (by decide)]
    exact h.resetValue
  resetValue := by
    rw [resets_reset]
    exact h.resetValue

theorem applyLayout (h : f.HoldsZero) (l : Layout) : (f.applyLayout l).HoldsZero where
  value := h.value
  resetValue := by
    rw [IntegerFile.applyLayout]
    dsimp only
    rw [Bank.resets_setResetValue_of_ne _ (by decide),
      Bank.resets_setResetValue_of_ne _ (by decide),
      Bank.resets_setResetValue_of_ne _ (by decide)]
    exact h.resetValue

theorem restore (h : f.HoldsZero) (number : Int) (value : UInt64) :
    (f.restore number value).state.HoldsZero := by
  rcases f.restore_cases number value with ⟨-, hsame⟩ | ⟨-, hsame⟩ | ⟨i, -, hi, hput⟩
  · rw [hsame]
    exact h
  · rw [hsame]
    exact h
  · rw [hput]
    exact h.put hi value

theorem restorePc (h : f.HoldsZero) (value : UInt64) : (f.restorePc value).state.HoldsZero := by
  rw [restorePc_eq_put]
  exact h.put (by decide) value

/-- Observers come and go without a change of what is stored. -/
theorem congr {g : IntegerFile} (h : f.HoldsZero) (hvalues : g.bank.values = f.bank.values)
    (hresets : g.bank.resets = f.bank.resets) : g.HoldsZero :=
  ⟨hvalues ▸ h.value, hresets ▸ h.resetValue⟩

theorem update (h : f.HoldsZero) (key : RegisterKey) (value : UInt64) :
    (f.update key value).state.HoldsZero := by
  cases hfound : find? key with
  | none =>
    rw [update_of_none hfound]
    exact h
  | some i =>
    by_cases hi : i = register 0
    · rw [update_zero (hi ▸ hfound)]
      exact h
    · rw [update_of_ne hfound hi]
      exact h.put hi value

/-- A request through the handle of another cell does not reach register 0. -/
theorem serveCell (h : f.HoldsZero) {request : CellRequest}
    (hr : ((spec.cell i).number == 0 && request.writes) = false) :
    (f.serve (.cell i request)).state.HoldsZero := by
  have hother : request.writes = true → i ≠ register 0 := by
    rintro hwrites rfl
    rw [hwrites] at hr
    exact absurd hr (by decide)
  cases request with
  | set value =>
    have hstate : (f.serve (.cell i (.set value))).state = f.put i value :=
      congrArg Step.state (f.set_eq_put i value)
    rw [hstate]
    exact h.put (hother rfl) value
  | backdoor value =>
    refine ⟨?_, h.resetValue⟩
    refine (f.bank.get_store i (register 0) false value).trans ?_
    rw [BankSpec.owner_of_not_view (by rw [BankSpec.isView, kind_plain i]), if_neg (hother rfl)]
    exact h.value
  | reset =>
    refine ⟨?_, (congrArg (·.get (register 0)) (f.bank.resets_foldl_reset [i])).trans h.resetValue⟩
    by_cases hi : i = register 0
    · subst hi
      exact (f.bank.values_reset_self (by decide)).trans h.resetValue
    · exact (f.bank.values_reset_of_ne hi).trans h.value
  | changeReset value =>
    exact ⟨h.value, (f.bank.resets_setResetValue_of_ne (hother rfl) value).trans h.resetValue⟩
  | observe id => exact h.congr rfl rfl
  | unobserve id => exact h.congr rfl rfl
  | unobserveAll => exact h.congr rfl rfl

end HoldsZero

theorem values_observe (f : IntegerFile) (id : ObserverId) :
    (f.observe id).bank.values = f.bank.values := by
  rw [observe, Bank.values_observe, RegisterBlock.values_observe]

theorem values_unobserve (f : IntegerFile) (id : ObserverId) :
    (f.unobserve id).bank.values = f.bank.values := by
  rw [unobserve, Bank.values_unobserve, RegisterBlock.values_unobserve]

theorem HoldsZero.serve (h : f.HoldsZero) {request : IntegerRequest}
    (hr : request.writesZeroCell = false) : (f.serve request).state.HoldsZero := by
  have hmove : request.movesPc = true → (f.serve request).state.HoldsZero := by
    intro hpc
    obtain ⟨a, hstate⟩ := f.state_of_movesPc hpc
    rw [hstate]
    exact h.put (by decide) _
  cases request with
  | update key value => exact h.update key value
  | setPc a => exact hmove rfl
  | placePc a => exact hmove rfl
  | incrementPc => exact hmove rfl
  | enter startAtMain symbols inText => exact hmove rfl
  | applyLayout l => exact h.applyLayout l
  | reset => exact h.reset
  | observe id => exact h.congr (f.values_observe id) (f.resets_observe id)
  | unobserve id => exact h.congr (f.values_unobserve id) (f.resets_unobserve id)
  | attach sink => exact h.congr rfl rfl
  | cell i request => exact h.serveCell hr

/-- A file that is reached from a new one without a write through the handle of register 0. -/
inductive Sealed : IntegerFile → Prop where
  | initial (l : Layout) : Sealed (ofLayout l)
  | serve {f : IntegerFile} (request : IntegerRequest) :
      Sealed f → request.writesZeroCell = false → Sealed (f.serve request).state
  | restore {f : IntegerFile} (number : Int) (value : UInt64) :
      Sealed f → Sealed (f.restore number value).state
  | restorePc {f : IntegerFile} (value : UInt64) : Sealed f → Sealed (f.restorePc value).state

theorem Sealed.holdsZero (h : f.Sealed) : f.HoldsZero := by
  induction h with
  | initial l => exact holdsZero_ofLayout l
  | serve _ _ hr ih => exact ih.serve hr
  | restore number value _ ih => exact ih.restore number value
  | restorePc value _ ih => exact ih.restorePc value

/-- How registers are read and written when register 0 is hard-wired to zero. -/
structure Hardwired (f : IntegerFile) : Prop where
  read : f.bank.read (register 0) = 0
  value : ∀ key, find? key = some (register 0) → (f.value key).answer = some 0
  dump : f.dump.head? = some 0
  discarded : ∀ key value, find? key = some (register 0) → f.update key value = .quiet (some 0) f
  /-- A write to another register answers what it has shown and stores the whole value. -/
  written : ∀ key i value, find? key = some i → i ≠ register 0 →
    (f.update key value).answer = some (f.bank.read i) ∧
      (f.update key value).state = f.put i value ∧
      ∀ j, (f.update key value).state.bank.read j = if i = j then value else f.bank.read j
  moved : ∀ request : IntegerRequest, request.movesPc = true →
    ∃ a : UInt32, (f.serve request).state = f.put programCounter a.toUInt64
  set : ∀ a, (f.setPc a).answer = f.pc.answer ∧
    (f.setPc a).state = f.put programCounter a.toUInt64
  incremented : f.incrementPc.state = f.put programCounter (f.pc.answer + 4).toUInt64

theorem HoldsZero.hardwired (h : f.HoldsZero) : f.Hardwired where
  read := (f.read_eq_get _).trans h.value
  value := by
    intro key hkey
    rw [IntegerFile.value, hkey]
    exact congrArg some ((f.read_eq_get _).trans h.value)
  dump := by
    have hhead : f.dump.head? = some (f.bank.read (register 0)) := rfl
    rw [hhead, read_eq_get, h.value]
  discarded := fun key value hkey => update_zero hkey value
  written := by
    intro key i value hkey hi
    rw [update_of_ne hkey hi]
    exact ⟨rfl, rfl, fun j => f.read_put i j value⟩
  moved := fun _ => f.state_of_movesPc
  set := by
    intro a
    rw [setPc, restorePc_eq_put]
    exact ⟨rfl, rfl⟩
  incremented := by
    rw [incrementPc, placePc, restorePc_eq_put]
    rfl

end IntegerFile
end ArchState
