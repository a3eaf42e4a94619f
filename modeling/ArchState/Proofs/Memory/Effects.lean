import ArchState.Proofs.Memory.Request

/-! # Stores with a decoder that has effects

A decoder of a memory has no effects, so that nobody can tell how often it is asked. Stores, and the
stores that put a record back, are therefore made here with a decoder that has effects of its own,
in any monad. They are the stores of the memory if the decoder is that of the memory and has none.
So they are with any decoder while programs may not change their text: it is then never asked.
-/
namespace ArchState

/-- A decoder with effects of its own. -/
abbrev DecoderIn (M : Type → Type) := UInt32 → UInt32 → M Statement

/-- The decoder that also writes down what it is asked. -/
def Decoder.logged (d : Decoder) : DecoderIn (StateM (List (UInt32 × UInt32))) := fun w a => do
  modify (· ++ [(w, a)])
  pure (d w a)

namespace Step
variable {σ α β γ ε : Type} {M : Type → Type} [Monad M]

def andThenM (s : Step σ α) (next : α → σ → M (Step σ β)) : M (Step σ β) :=
  (fun t => s.andThen fun _ _ => t) <$> next s.answer s.state

def guardedM (check : Except ε γ) (state : σ) (next : γ → M (Step σ (Except ε α))) :
    M (Step σ (Except ε α)) :=
  match check with
  | .ok c => next c
  | .error e => pure (.quiet (.error e) state)

def thenTryM (s : Step σ (Except ε α)) (next : α → σ → M (Step σ (Except ε β))) :
    M (Step σ (Except ε β)) :=
  s.andThenM fun answer state => guardedM answer state fun a => next a state

theorem guardedM_eq_pure {check : Except ε γ} {state : σ} {next : γ → M (Step σ (Except ε α))}
    {next' : γ → Step σ (Except ε α)} (h : ∀ c, check = .ok c → next c = pure (next' c)) :
    guardedM check state next = pure (guarded check state next') := by
  cases check with
  | error e => rfl
  | ok c => exact h c rfl

variable [LawfulMonad M]

theorem andThenM_eq_pure {s : Step σ α} {next : α → σ → M (Step σ β)} {next' : α → σ → Step σ β}
    (h : next s.answer s.state = pure (next' s.answer s.state)) :
    s.andThenM next = pure (s.andThen next') := by
  rw [andThenM, h, map_pure]
  rfl

theorem thenTryM_eq_pure {s : Step σ (Except ε α)} {next : α → σ → M (Step σ (Except ε β))}
    {next' : α → σ → Step σ (Except ε β)}
    (h : ∀ a, s.answer = .ok a → next a s.state = pure (next' a s.state)) :
    s.thenTryM next = pure (s.thenTry next') :=
  andThenM_eq_pure (guardedM_eq_pure h)

end Step

namespace Memory
variable {M : Type → Type} [Monad M]

def putWordVia (m : Memory) (decode : DecoderIn M) (seg : Segment) (a w : UInt32) : M Memory :=
  match seg with
  | .text => m.putStatement a <$> decode w a
  | _ => pure (m.putWord seg a w)

def writePartVia (m : Memory) (decode : DecoderIn M) (seg : Segment) (v : UInt32) (p : Part) :
    M Memory :=
  m.putWordVia decode seg (wordBase p.address)
    (Word.insert (m.wordAt seg p.address) p.offset p.count (Word.down v p.done))

def storePartsVia (m : Memory) (decode : DecoderIn M) (seg : Segment) (v old : UInt32) :
    List Part → M (Step Memory (Except AddressFault UInt32))
  | [] => pure (.quiet (.ok old) m)
  | p :: ps =>
    if m.segments.slot seg p.address < m.image.length seg * blockWords then do
      let next ← m.writePartVia decode seg v p
      next.storePartsVia decode seg v (old ||| m.loadPart seg p) ps
    else pure (.quiet (.error ⟨.write, .outOfRange, p.address⟩) m)

def storeVia (m : Memory) (decode : DecoderIn M) (a v : UInt32) (length : Nat) :
    M (Step Memory (Except AddressFault UInt32)) :=
  Step.guardedM (m.storeTarget a length) m fun seg =>
    m.storePartsVia decode seg v 0 (parts a length)

def setVia (m : Memory) (decode : DecoderIn M) (a v : UInt32) (length : Nat) :
    M (Step Memory (Except AddressFault UInt32)) :=
  (·.thenTry fun old m => ⟨.ok old, m, m.notify .write a length (Word.low v length)⟩) <$>
    m.storeVia decode a v length

def setAlignedVia (m : Memory) (decode : DecoderIn M) (a v : UInt32) (length : Nat)
    (record : UInt32 → UInt32 → UndoRecord) : M (Step Memory (Except AddressFault UInt32)) :=
  Step.guardedM (checkAligned .write a length) m fun _ =>
    (·.thenTry fun old m => ⟨.ok old, m, Sink.signals m.sink (record a old)⟩) <$>
      m.setVia decode a v length

def storeDoubleVia (m : Memory) (decode : DecoderIn M) (a : UInt32) (d : UInt64) :
    M (Step Memory (Except AddressFault UInt64)) :=
  Step.guardedM (m.checkDoubleStore a) m fun b => do
    let lower ← m.setVia decode a (DoubleWord.lowWord d) 4
    lower.thenTryM fun low m =>
      (·.thenTry fun high m => .quiet (.ok (DoubleWord.ofWords low high)) m) <$>
        m.setVia decode b (DoubleWord.highWord d) 4

def setDoubleVia (m : Memory) (decode : DecoderIn M) (a : UInt32) (d : UInt64) :
    M (Step Memory (Except AddressFault UInt64)) :=
  (·.thenTry fun old m => ⟨.ok old, m, Sink.signals m.sink (.doubleWord a old)⟩) <$>
    m.storeDoubleVia decode a d

def storeAsVia (m : Memory) (decode : DecoderIn M) (a : UInt32) (d : UInt64) :
    AccessKind → M (Step Memory (Except AddressFault Answer))
  | .bytes length => (·.map (·.map .word)) <$> m.setVia decode a (DoubleWord.lowWord d) length
  | .byte => (·.map (·.map .word)) <$> m.setAlignedVia decode a (DoubleWord.lowWord d) 1 .byte
  | .half => (·.map (·.map .word)) <$> m.setAlignedVia decode a (DoubleWord.lowWord d) 2 .half
  | .word => (·.map (·.map .word)) <$> m.setAlignedVia decode a (DoubleWord.lowWord d) 4 .word
  | .double => (·.map (·.map .double)) <$> m.setDoubleVia decode a d

def restoreVia (m : Memory) (decode : DecoderIn M) :
    UndoRecord → M (Step Memory (Except AddressFault Unit))
  | .word a v => (·.map (·.map fun _ => ())) <$> m.setVia decode a v 4
  | .half a v => (·.map (·.map fun _ => ())) <$> m.setVia decode a v 2
  | .byte a v => (·.map (·.map fun _ => ())) <$> m.setVia decode a v 1
  | .rawWord a v =>
    Step.guardedM (checkAligned .write a 4) m fun _ =>
      (·.map (·.map fun _ => ())) <$> m.setVia decode a v 4
  | .doubleWord a d => (·.map (·.map fun _ => ())) <$> m.storeDoubleVia decode a d
  | .register _ _ | .floatRegister _ _ | .controlRegister _ _ | .programCounter _ =>
    pure (.quiet (.ok ()) m)

/-- Whether no effect of a decoder can show in the stores to a memory: programs may not change their
text, or the decoder is that of the memory and has no effects. -/
def Harmless (m : Memory) (decode : DecoderIn M) : Prop :=
  m.selfModifying = false ∨ decode = fun w a => pure (m.decoder w a)

variable {m : Memory} {decode : DecoderIn M}

theorem Harmless.withImage (h : m.Harmless decode) (image : Image)
    (fits : image.Fits (Segments.ofLayout m.layout)) : (m.withImage image fits).Harmless decode := h

theorem Harmless.set (h : m.Harmless decode) (a v : UInt32) (length : Nat) :
    (m.set a v length).state.Harmless decode := by
  obtain ⟨image, fits, hframe⟩ := m.set_frame a v length
  rw [hframe]
  exact h.withImage image fits

variable [LawfulMonad M] {seg : Segment}

theorem putWordVia_eq_pure (h : seg ≠ .text ∨ decode = fun w a => pure (m.decoder w a))
    (a w : UInt32) : m.putWordVia decode seg a w = pure (m.putWord seg a w) := by
  cases seg with
  | text =>
    obtain rfl := h.resolve_left fun hseg => hseg rfl
    rw [putWordVia, map_pure]
    rfl
  | data | stack | mmio => rfl

theorem storePartsVia_eq_pure (h : seg ≠ .text ∨ decode = fun w a => pure (m.decoder w a))
    (v old : UInt32) (ps : List Part) :
    m.storePartsVia decode seg v old ps = pure (m.storeParts seg v old ps) := by
  induction ps generalizing m old with
  | nil => rfl
  | cons p ps ih =>
    rw [storePartsVia, storeParts]
    split
    · rw [writePartVia, putWordVia_eq_pure h, pure_bind]
      exact ih (m := m.writePart seg v p) h (old ||| m.loadPart seg p)
    · rfl

theorem storeVia_eq_pure (h : m.Harmless decode) (a v : UInt32) (length : Nat) :
    m.storeVia decode a v length = pure (m.store a v length) := by
  refine Step.guardedM_eq_pure fun seg hseg => storePartsVia_eq_pure ?_ v 0 (parts a length)
  rw [storeTarget_eq_locate] at hseg
  exact h.imp_left fun hoff => ne_text_of_locate hoff hseg

theorem setVia_eq_pure (h : m.Harmless decode) (a v : UInt32) (length : Nat) :
    m.setVia decode a v length = pure (m.set a v length) := by
  rw [setVia, storeVia_eq_pure h, map_pure]
  rfl

theorem setAlignedVia_eq_pure (h : m.Harmless decode) (a v : UInt32) (length : Nat)
    (record : UInt32 → UInt32 → UndoRecord) :
    m.setAlignedVia decode a v length record = pure (m.setAligned a v length record) := by
  refine Step.guardedM_eq_pure fun _ _ => ?_
  rw [setVia_eq_pure h, map_pure]

theorem storeDoubleVia_eq_pure (h : m.Harmless decode) (a : UInt32) (d : UInt64) :
    m.storeDoubleVia decode a d = pure (m.storeDouble a d) := by
  refine Step.guardedM_eq_pure fun b _ => ?_
  rw [setVia_eq_pure h, pure_bind]
  refine Step.thenTryM_eq_pure fun low _ => ?_
  rw [setVia_eq_pure (h.set a _ 4), map_pure]

theorem setDoubleVia_eq_pure (h : m.Harmless decode) (a : UInt32) (d : UInt64) :
    m.setDoubleVia decode a d = pure (m.setDouble a d) := by
  rw [setDoubleVia, storeDoubleVia_eq_pure h, map_pure]
  rfl

theorem storeAsVia_eq_pure (h : m.Harmless decode) (kind : AccessKind) (a : UInt32) (d : UInt64) :
    m.storeAsVia decode a d kind = pure (m.storeAs a d kind) := by
  cases kind with
  | bytes length =>
    rw [storeAsVia, setVia_eq_pure h, map_pure]
    rfl
  | byte | half | word =>
    rw [storeAsVia, setAlignedVia_eq_pure h, map_pure]
    rfl
  | double =>
    rw [storeAsVia, setDoubleVia_eq_pure h, map_pure]
    rfl

theorem restoreVia_eq_pure (h : m.Harmless decode) (record : UndoRecord) :
    m.restoreVia decode record = pure (m.restore record) := by
  cases record with
  | word a v | half a v | byte a v =>
    rw [restoreVia, setVia_eq_pure h, map_pure]
    rfl
  | rawWord a v =>
    refine Step.guardedM_eq_pure fun _ _ => ?_
    rw [setVia_eq_pure h, map_pure]
  | doubleWord a d =>
    rw [restoreVia, storeDoubleVia_eq_pure h, map_pure]
    rfl
  | register n v | floatRegister n v | controlRegister n v | programCounter v => rfl

end Memory
end ArchState
