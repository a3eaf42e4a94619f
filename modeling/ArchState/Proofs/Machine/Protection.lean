import ArchState.Machine.Build
import ArchState.Proofs.Memory.Effects
import ArchState.Proofs.Memory.Protection

/-! # Runs of stores under the protection of text

Programs write memory through stores of several kinds, and a machine writes it when it puts records
back, one by one or by steps back. While the switch for self-modifying code is off, text comes out
of every run of these as it was, and the decoder is not asked in it.
-/
namespace ArchState

/-- What writes memory by data accesses. -/
inductive DataAccess where
  | store (kind : AccessKind) (a : UInt32) (d : UInt64)
  | storeRaw (a v : UInt32)
  | restore (record : UndoRecord)
  | backstep
  deriving DecidableEq, Repr

namespace Machine
open Memory (StoreRequest)
variable {m : Machine} {decoder : Decoder}

def decodedBy (m : Machine) (decoder : Decoder) : Machine :=
  { m with memory := m.memory.decodedBy decoder }

def access (m : Machine) : DataAccess → Step Machine (Except AddressFault Answer)
  | .store kind a d => m.inMemory (m.memory.storeAs a d kind)
  | .storeRaw a v => m.inMemory ((m.memory.setRawWord a v).map (·.map .word))
  | .restore record => (m.restore record).map (·.map fun _ => .done)
  | .backstep => m.backstep.map (·.map .found)

/-- Makes accesses one after the other, also those after one that fails, and collects the answers
and the signals. -/
def accessAll (m : Machine) : List DataAccess → Step Machine (List (Except AddressFault Answer))
  | [] => .quiet [] m
  | x :: xs => (m.access x).andThen fun answer next => (next.accessAll xs).map (answer :: ·)

section Effects
variable {M : Type → Type} [Monad M]

def restoreVia (m : Machine) (decode : DecoderIn M) (record : UndoRecord) :
    M (Step Machine (Except AddressFault Unit)) :=
  match record with
  | .register _ _ | .floatRegister _ _ | .controlRegister _ _ | .programCounter _ =>
    pure (m.restore record)
  | record => m.inMemory <$> m.memory.restoreVia decode record

def backstepVia (m : Machine) (decode : DecoderIn M) :
    M (Step Machine (Except AddressFault Bool)) :=
  match m.log.bind UndoLog.pop? with
  | none => pure (.quiet (.ok false) m)
  | some (record, log) =>
    (·.map (Except.map fun _ => true)) <$> restoreVia { m with log := some log } decode record

/-- An access of a machine whose memory asks a decoder with effects. -/
def accessVia (m : Machine) (decode : DecoderIn M) :
    DataAccess → M (Step Machine (Except AddressFault Answer))
  | .store kind a d => m.inMemory <$> m.memory.storeAsVia decode a d kind
  | .storeRaw a v =>
    (fun s => m.inMemory (s.map (·.map .word))) <$> m.memory.setAlignedVia decode a v 4 .rawWord
  | .restore record => (·.map (·.map fun _ => .done)) <$> m.restoreVia decode record
  | .backstep => (·.map (·.map .found)) <$> m.backstepVia decode

def accessAllVia (m : Machine) (decode : DecoderIn M) :
    List DataAccess → M (Step Machine (List (Except AddressFault Answer)))
  | [] => pure (.quiet [] m)
  | x :: xs => do
    let s ← m.accessVia decode x
    s.andThenM fun answer next => (·.map (answer :: ·)) <$> next.accessAllVia decode xs

end Effects

/-- The record that a step back would write back. -/
def newest? (m : Machine) : Option UndoRecord := (m.log.bind UndoLog.pop?).map Prod.fst

/-- The writes that an access consists of. A double word is written in two halves. -/
def writes (m : Machine) : DataAccess → List StoreRequest
  | .store kind a d => (MemoryRequest.store kind a d).writes
  | .storeRaw a v => (MemoryRequest.storeRaw a v).writes
  | .restore record => record.writes
  | .backstep => (m.newest?.map UndoRecord.writes).getD []

/-- Whether one of the writes of an access begins in a word of text. -/
def BeginsInText (m : Machine) (x : DataAccess) : Prop :=
  ∃ w ∈ m.writes x, m.memory.segments.owner? (wordBase w.address) = some .text

theorem memory_restore (m : Machine) (record : UndoRecord) :
    (m.restore record).state.memory = (m.memory.restore record).state ∧
      (m.restore record).answer = (m.memory.restore record).answer := by
  cases record with
  | register n v | floatRegister n v | controlRegister n v | programCounter v => exact ⟨rfl, rfl⟩
  | word a v | half a v | byte a v | rawWord a v | doubleWord a d => exact ⟨rfl, rfl⟩

theorem decided_restoring (m : Machine) (record : UndoRecord) :
    ∃ s : Step Memory (Option Answer), Memory.Decided m.memory record.writes s ∧
      (m.restore record).state.memory = s.state ∧
      (m.restore record).answer.toOption.isSome = s.answer.isSome := by
  obtain ⟨hmemory, hanswer⟩ := m.memory_restore record
  refine ⟨_, m.memory.decided_restore record, hmemory, ?_⟩
  rw [Step.map, ← hanswer]
  cases (m.restore record).answer <;> rfl

/-- In memory, an access is a store that is refused or made. -/
theorem decided_access (m : Machine) (x : DataAccess) :
    ∃ s : Step Memory (Option Answer), Memory.Decided m.memory (m.writes x) s ∧
      (m.access x).state.memory = s.state ∧
      (m.access x).answer.toOption.isSome = s.answer.isSome := by
  cases x with
  | store kind a d => exact ⟨_, m.memory.decided_storeAs kind a d, rfl, rfl⟩
  | storeRaw a v =>
    refine ⟨_, m.memory.decided_setAligned a v 4 .rawWord .word, rfl, ?_⟩
    rw [← Step.map_toOption]
    rfl
  | restore record =>
    obtain ⟨s, hdecided, hmemory, hanswer⟩ := m.decided_restoring record
    refine ⟨s, hdecided, hmemory, ?_⟩
    rw [← hanswer, access, Step.map]
    cases (m.restore record).answer <;> rfl
  | backstep =>
    rw [access, backstep, writes, newest?]
    cases m.log.bind UndoLog.pop? with
    | none =>
      exact ⟨⟨some .done, m.memory, []⟩, .inr ⟨rfl, List.forall_mem_nil _, rfl, rfl⟩, rfl, rfl⟩
    | some popped =>
      obtain ⟨record, log⟩ := popped
      obtain ⟨s, hdecided, hmemory, hanswer⟩ := decided_restoring { m with log := some log } record
      refine ⟨s, hdecided, hmemory, ?_⟩
      rw [← hanswer]
      simp only [Step.map]
      cases (restore { m with log := some log } record).answer <;> rfl

theorem access_frame (m : Machine) (x : DataAccess) :
    ∃ image fits, (m.access x).state.memory = m.memory.withImage image fits := by
  obtain ⟨s, hdecided, hmemory, -⟩ := m.decided_access x
  rw [hmemory]
  exact hdecided.state_frame

theorem text_access (hoff : m.memory.selfModifying = false) (x : DataAccess) :
    (m.access x).state.memory.image.text = m.memory.image.text := by
  obtain ⟨s, hdecided, hmemory, -⟩ := m.decided_access x
  rw [hmemory]
  exact hdecided.text_eq hoff

/-- An access that begins in text fails and leaves memory as it is. -/
theorem access_of_text (hoff : m.memory.selfModifying = false) {x : DataAccess}
    (h : m.BeginsInText x) :
    (∃ fault, (m.access x).answer = .error fault) ∧ (m.access x).state.memory = m.memory := by
  obtain ⟨s, hdecided, hmemory, hanswer⟩ := m.decided_access x
  obtain rfl := hdecided.refused_of_text hoff h
  refine ⟨?_, hmemory⟩
  cases hx : (m.access x).answer with
  | error fault => exact ⟨fault, rfl⟩
  | ok answer =>
    rw [hx] at hanswer
    exact nomatch hanswer

theorem restoring_decodedBy (hoff : m.memory.selfModifying = false) (record : UndoRecord) :
    (m.decodedBy decoder).restore record = (m.restore record).within (·.decodedBy decoder) := by
  have hmemory : (m.memory.decodedBy decoder).restore record =
      (m.memory.restore record).within (·.decodedBy decoder) := Memory.restore_decodedBy hoff record
  cases record with
  | register n v | floatRegister n v | controlRegister n v | programCounter v => rfl
  | word a v | half a v | byte a v | rawWord a v | doubleWord a d =>
    exact congrArg m.inMemory hmemory

theorem access_decodedBy (hoff : m.memory.selfModifying = false) (x : DataAccess) :
    (m.decodedBy decoder).access x = (m.access x).within (·.decodedBy decoder) := by
  cases x with
  | store kind a d =>
    rw [access, access, decodedBy, Memory.storeAs_decodedBy hoff]
    rfl
  | storeRaw a v =>
    rw [access, access, decodedBy, Memory.setRawWord, Memory.setRawWord,
      Memory.setAligned_decodedBy hoff]
    rfl
  | restore record =>
    rw [access, access, restoring_decodedBy hoff]
    rfl
  | backstep =>
    have hlog : (m.decodedBy decoder).log = m.log := rfl
    rw [access, access, backstep, backstep, hlog]
    cases m.log.bind UndoLog.pop? with
    | none => rfl
    | some popped =>
      obtain ⟨record, log⟩ := popped
      have hrestore : (decodedBy { m with log := some log } decoder).restore record =
          (restore { m with log := some log } record).within (·.decodedBy decoder) :=
        restoring_decodedBy (m := { m with log := some log }) hoff record
      exact congrArg (fun s => (s.map (Except.map fun _ => true)).map (·.map Answer.found)) hrestore

section Effects
variable {M : Type → Type} [Monad M] [LawfulMonad M] {decode : DecoderIn M}

theorem restoreVia_eq_pure (h : m.memory.Harmless decode) (record : UndoRecord) :
    m.restoreVia decode record = pure (m.restore record) := by
  cases record with
  | register n v | floatRegister n v | controlRegister n v | programCounter v => rfl
  | word a v | half a v | byte a v | rawWord a v | doubleWord a d =>
    rw [restoreVia, Memory.restoreVia_eq_pure h, map_pure]
    · rfl
    all_goals exact nofun

theorem backstepVia_eq_pure (h : m.memory.Harmless decode) :
    m.backstepVia decode = pure m.backstep := by
  rw [backstepVia, backstep]
  cases m.log.bind UndoLog.pop? with
  | none => rfl
  | some popped =>
    obtain ⟨record, log⟩ := popped
    dsimp only
    rw [restoreVia_eq_pure (m := { m with log := some log }) h, map_pure]

theorem accessVia_eq_pure (h : m.memory.Harmless decode) (x : DataAccess) :
    m.accessVia decode x = pure (m.access x) := by
  cases x with
  | store kind a d =>
    rw [accessVia, Memory.storeAsVia_eq_pure h, map_pure]
    rfl
  | storeRaw a v =>
    rw [accessVia, Memory.setAlignedVia_eq_pure h, map_pure]
    rfl
  | restore record =>
    rw [accessVia, restoreVia_eq_pure h, map_pure]
    rfl
  | backstep =>
    rw [accessVia, backstepVia_eq_pure h, map_pure]
    rfl

theorem accessAllVia_eq_pure (h : m.memory.Harmless decode) (xs : List DataAccess) :
    m.accessAllVia decode xs = pure (m.accessAll xs) := by
  induction xs generalizing m with
  | nil => rfl
  | cons x xs ih =>
    obtain ⟨image, fits, hframe⟩ := m.access_frame x
    have hnext : (m.access x).state.memory.Harmless decode := by
      rw [hframe]
      exact h.withImage image fits
    rw [accessAllVia, accessVia_eq_pure h, pure_bind]
    refine Step.andThenM_eq_pure ?_
    rw [ih hnext, map_pure]

end Effects

/-- What a run keeps is what every access keeps, as long as text is protected. -/
theorem accessAll_keeps {P : Machine → Prop}
    (hstep : ∀ n x, P n → P (n.access x).state) (h : P m) (xs : List DataAccess) :
    P (m.accessAll xs).state := by
  induction xs generalizing m with
  | nil => exact h
  | cons x xs ih => exact ih (hstep m x h)

/-- Machines whose text is protected and laid out and filled as in `m`. -/
structure SameText (m n : Machine) : Prop where
  off : n.memory.selfModifying = false
  layout : n.memory.layout = m.memory.layout
  text : n.memory.image.text = m.memory.image.text

theorem SameText.access {n : Machine} (h : m.SameText n) (x : DataAccess) :
    m.SameText (n.access x).state := by
  obtain ⟨image, fits, hframe⟩ := n.access_frame x
  refine ⟨?_, ?_, (text_access h.off x).trans h.text⟩
  · rw [hframe]
    exact h.off
  · rw [hframe]
    exact h.layout

theorem accessAll_decodedBy (hoff : m.memory.selfModifying = false) (xs : List DataAccess) :
    (m.decodedBy decoder).accessAll xs = (m.accessAll xs).within (·.decodedBy decoder) := by
  induction xs generalizing m with
  | nil => rfl
  | cons x xs ih =>
    obtain ⟨image, fits, hframe⟩ := m.access_frame x
    have hnext : (m.access x).state.memory.selfModifying = false := by
      rw [hframe]
      exact hoff
    rw [accessAll, accessAll, access_decodedBy hoff]
    simp only [Step.andThen, Step.within, ih hnext]
    rfl

/-- Text is immutable while programs may not change it. After any run of stores, restored records
and steps back every statement reads as before, and the run has not asked the decoder: with one that
has effects of any kind the run has none, and under any other decoder it answers, sends and leaves
the same. In every machine the run with the decoder of its memory, which has no effects, is the run
itself. An access that begins in text, as does a double word with one half there, fails and leaves
memory as it was. -/
theorem text_immutable (hoff : m.memory.selfModifying = false) (run : List DataAccess) :
    let after := (m.accessAll run).state
    (∀ a, after.memory.fetchStatement a = m.memory.fetchStatement a) ∧
      (∀ {M : Type → Type} [Monad M] [LawfulMonad M],
        (∀ decode : DecoderIn M, m.accessAllVia decode run = pure (m.accessAll run)) ∧
        ∀ n : Machine, n.accessAllVia (M := M) (fun w a => pure (n.memory.decoder w a)) run =
          pure (n.accessAll run)) ∧
      (∀ decoder, (m.decodedBy decoder).accessAll run =
        (m.accessAll run).within (·.decodedBy decoder)) ∧
      ∀ x, after.BeginsInText x →
        (∃ fault, (after.access x).answer = .error fault) ∧
          (after.access x).state.memory = after.memory := by
  intro after
  have hsame : m.SameText after :=
    accessAll_keeps (fun _ x h => h.access x) ⟨hoff, rfl, rfl⟩ run
  refine ⟨?_, ?_, ?_, ?_⟩
  · intro a
    exact Memory.fetchStatement_congr hsame.layout hsame.text a
  · intro M _ _
    exact ⟨fun decode => accessAllVia_eq_pure (.inl hoff) run,
      fun n => accessAllVia_eq_pure (.inr rfl) run⟩
  · intro decoder
    exact accessAll_decodedBy hoff run
  · intro x hx
    exact access_of_text hsame.off hx

/-- A double word that ends in text is not stored and a byte of text is not put back, while a word
next to them is stored, all without the decoder, which would have been asked twice with the switch
on. Then a step back finds a record of text. -/
theorem accesses_to_text_fail :
    let st : Statement := .ofBinary 0x13 0x3000
    let m : Machine := { initial 1 with
      memory := (Memory.ofLayout .compactDataAtZero).putStatement 0x3000 st
      log := some ((UndoLog.empty 8).record (.rawWord 0x3000 7)) }
    let run : List DataAccess :=
      [.store .double 0x2FFC 0x700000007, .restore (.byte 0x3001 9), .store .word 0x2FF8 5]
    m.memory.selfModifying = false ∧
      ((m.accessAllVia m.memory.decoder.logged run).run []).2 = [] ∧
      (({ m with memory := { m.memory with selfModifying := true } }.accessAllVia
        m.memory.decoder.logged run).run []).2 = [(7, 0x3000), (0x907, 0x3000)] ∧
      ((m.accessAll run).state.memory.rawWord 0x2FF8).toOption = some 5 ∧
      ((m.accessAll run).state.memory.rawWord 0x2FFC).toOption = some 0 ∧
      ((m.accessAll run).state.memory.fetchStatement 0x3000).toOption = some (some st) ∧
      (m.accessAll run).state.newest? = some (.rawWord 0x3000 7) ∧
      ((m.accessAll run).state.access .backstep).state.memory = (m.accessAll run).state.memory := by
  intro st m run
  obtain ⟨hstatements, hsilent, -, hrefused⟩ := text_immutable (m := m) rfl run
  have hnewest : (m.accessAll run).state.newest? = some (.rawWord 0x3000 7) := by decide +kernel
  have howner : (m.accessAll run).state.memory.segments.owner? (wordBase 0x3000) = some .text := by
    decide +kernel
  have hbegins : (m.accessAll run).state.BeginsInText .backstep := by
    refine ⟨⟨0x3000, 7, 4⟩, ?_, howner⟩
    rw [writes, hnewest]
    exact List.mem_singleton_self _
  have hbefore : (m.memory.fetchStatement 0x3000).toOption = some (some st) := by decide +kernel
  refine ⟨rfl, ?_, by decide +kernel, by decide +kernel, by decide +kernel, ?_, hnewest,
    (hrefused _ hbegins).2⟩
  · rw [hsilent.1]
    rfl
  · rw [hstatements]
    exact hbefore

end Machine
end ArchState
