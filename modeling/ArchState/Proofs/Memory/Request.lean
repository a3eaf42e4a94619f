import ArchState.Memory.Heap
import ArchState.Memory.Scan
import ArchState.Memory.Text
import ArchState.Proofs.Memory.Faults

/-! # Requests to a memory

Everything that is asked of a memory, as data, so that one can speak of runs. A request that
stores consists of plain writes. They are all made or, if one of them is not allowed, none is.
A request that stores nothing leaves every word as it is, unless it empties the memory.
-/
namespace ArchState

/-- The number of bytes that an access covers. -/
def AccessKind.size : AccessKind → Nat
  | bytes length => length
  | byte => 1
  | half => 2
  | word => 4
  | double => 8

/-- Where an observer is registered. -/
inductive Region where
  | everywhere
  | place (a : UInt32)
  | range (first last : UInt32)
  deriving DecidableEq, Repr

/-- What is read without anybody being told. -/
inductive Query where
  | bytes (a : UInt32) (length : Nat)
  | word (a : UInt32)
  | rawWord (a : UInt32)
  | rawWord? (a : UInt32)
  | statement (a : UInt32)
  | firstNull (a limit : UInt32)
  deriving DecidableEq, Repr

inductive Answer where
  | done
  | word (w : UInt32)
  | double (d : UInt64)
  | nullable (w : Option UInt32)
  | statement (st : Option Statement)
  | handle (id : ObserverId)
  | found (b : Bool)
  deriving DecidableEq, Repr

/-- What may be asked of a memory. A store of less than a double word takes the low word of its
value. -/
inductive MemoryRequest where
  | load (kind : AccessKind) (a : UInt32)
  | store (kind : AccessKind) (a : UInt32) (d : UInt64)
  | storeRaw (a v : UInt32)
  | readStatement (a : UInt32)
  | install (a : UInt32) (st : Statement)
  | restore (record : UndoRecord)
  | inspect (query : Query)
  | allocate (size : Int)
  | clear
  | setLayout (l : Layout)
  | allowSelfModifying (on : Bool)
  | useDecoder (decoder : Decoder)
  | attach (sink : Option Sink)
  | observe (region : Region)
  | unobserve (id : ObserverId)
  | unobserveAll

section
variable {ε α β : Type} {x : Except ε α} {b : β}

theorem exists_of_map_eq_ok {f : α → β} (h : x.map f = .ok b) : ∃ a, x = .ok a ∧ f a = b := by
  cases x with
  | error e => cases h
  | ok a => exact ⟨a, rfl, Except.ok.inj h⟩

end

namespace Step
variable {σ ε α β : Type}

theorem map_toOption (s : Step σ (Except ε α)) (f : α → β) :
    (s.map (·.map f)).map Except.toOption = s.map fun r => r.toOption.map f := by
  obtain ⟨answer, state, signals⟩ := s
  cases answer <;> rfl

theorem map_forget (s : Step σ (Except ε α)) (answer : β) :
    (s.map (·.map fun _ => ())).map (fun r => r.toOption.map fun _ => answer) =
      s.map fun r => r.toOption.map fun _ => answer := by
  obtain ⟨old, state, signals⟩ := s
  cases old <;> rfl

end Step

namespace Memory

def loadAs (m : Memory) (a : UInt32) : AccessKind → Reading (Except AddressFault Answer)
  | .bytes length => (m.get a length).map (·.map .word)
  | .byte => (m.getByte a).map (·.map .word)
  | .half => (m.getHalf a).map (·.map .word)
  | .word => (m.getWord a).map (·.map .word)
  | .double => (m.getDouble a).map (·.map .double)

def storeAs (m : Memory) (a : UInt32) (d : UInt64) :
    AccessKind → Step Memory (Except AddressFault Answer)
  | .bytes length => (m.set a (DoubleWord.lowWord d) length).map (·.map .word)
  | .byte => (m.setByte a (DoubleWord.lowWord d)).map (·.map .word)
  | .half => (m.setHalf a (DoubleWord.lowWord d)).map (·.map .word)
  | .word => (m.setWord a (DoubleWord.lowWord d)).map (·.map .word)
  | .double => (m.setDouble a d).map (·.map .double)

def inspect (m : Memory) : Query → Option Answer
  | .bytes a length => (m.fetch a length).toOption.map .word
  | .word a => (m.fetchWord a).toOption.map .word
  | .rawWord a => (m.rawWord a).toOption.map .word
  | .rawWord? a => (m.rawWord? a).toOption.map .nullable
  | .statement a => (m.fetchStatement a).toOption.map .statement
  | .firstNull a limit => (m.firstNull a limit).toOption.map .word

def register (m : Memory) (id : ObserverId) : Region → Except WatchFault Memory
  | .everywhere => .ok (m.observeAll id)
  | .place a => m.observeAt id a
  | .range first last => m.observeRange id first last

def reading (m : Memory) (r : Reading (Except AddressFault Answer)) : Step Memory (Option Answer) :=
  ⟨r.answer.toOption, m, r.signals⟩

def changing {ε : Type} (m : Memory) : Except ε (Answer × Memory) → Step Memory (Option Answer)
  | .ok (answer, next) => .quiet (some answer) next
  | .error _ => .quiet none m

/-- Carries a request out and answers it, or answers none if it is refused. An observer that is
registered gets the handle `id`. -/
def serve (m : Memory) (id : ObserverId) : MemoryRequest → Step Memory (Option Answer)
  | .load kind a => m.reading (m.loadAs a kind)
  | .store kind a d => (m.storeAs a d kind).map Except.toOption
  | .storeRaw a v => (m.setRawWord a v).map fun r => r.toOption.map .word
  | .readStatement a => m.reading ((m.getStatement a).map (·.map .statement))
  | .install a st =>
    m.changing ((m.setStatement a st).map fun (old, next) => (.statement old, next))
  | .restore record => (m.restore record).map fun r => r.toOption.map fun _ => .done
  | .inspect query => .quiet (m.inspect query) m
  | .allocate size => m.changing ((m.allocate size).map fun (a, next) => (.word a, next))
  | .clear => .quiet (some .done) m.clear
  | .setLayout l => .quiet (some .done) (m.setLayout l)
  | .allowSelfModifying on => .quiet (some .done) { m with selfModifying := on }
  | .useDecoder decoder => .quiet (some .done) { m with decoder }
  | .attach sink => .quiet (some .done) { m with sink }
  | .observe region => m.changing ((m.register id region).map fun next => (.handle id, next))
  | .unobserve old => .quiet (some (.found (m.unobserve old).1)) (m.unobserve old).2
  | .unobserveAll => .quiet (some .done) m.unobserveAll

end Memory

open Memory (StoreRequest)

/-- The two writes that a store of a double word consists of. -/
def DoubleWord.writes (a : UInt32) (d : UInt64) : List StoreRequest :=
  [⟨a, lowWord d, 4⟩, ⟨a + 4, highWord d, 4⟩]

def UndoRecord.writes : UndoRecord → List StoreRequest
  | word a v | rawWord a v => [⟨a, v, 4⟩]
  | half a v => [⟨a, v, 2⟩]
  | byte a v => [⟨a, v, 1⟩]
  | doubleWord a d => DoubleWord.writes a d
  | register _ _ | floatRegister _ _ | controlRegister _ _ | programCounter _ => []

namespace MemoryRequest

/-- The writes that a request consists of, in the order in which they are made. -/
def writes : MemoryRequest → List StoreRequest
  | store .double a d => DoubleWord.writes a d
  | store kind a d => [⟨a, DoubleWord.lowWord d, kind.size⟩]
  | storeRaw a v => [⟨a, v, 4⟩]
  | restore record => record.writes
  | _ => []

def stores : MemoryRequest → Bool
  | store _ _ _ | storeRaw _ _ | restore _ => true
  | _ => false

def installs : MemoryRequest → Bool
  | install _ _ => true
  | _ => false

/-- Whether a request leaves null words only. -/
def empties : MemoryRequest → Bool
  | clear | setLayout _ => true
  | _ => false

end MemoryRequest

namespace Memory
variable {m : Memory} {seg : Segment} {a b v : UInt32} {length : Nat} {d : UInt64}

theorem set_frame (m : Memory) (a v : UInt32) (length : Nat) :
    ∃ image fits, (m.set a v length).state = m.withImage image fits := by
  cases hl : m.locate .write a length with
  | error fault =>
    rw [set_of_fault hl]
    exact ⟨m.image, m.fits, rfl⟩
  | ok seg =>
    rw [set_eq_replace hl]
    exact replace_frame m seg a v length

/-- Writes change the contents of a memory and nothing else about it. -/
theorem storeAll_frame (m : Memory) (writes : List StoreRequest) :
    ∃ image fits, m.storeAll writes = m.withImage image fits := by
  induction writes generalizing m with
  | nil => exact ⟨m.image, m.fits, rfl⟩
  | cons w writes ih =>
    obtain ⟨image, fits, hset⟩ := set_frame m w.address w.value w.length
    obtain ⟨image', fits', hrest⟩ := ih (m.withImage image fits)
    refine ⟨image', fits', ?_⟩
    have hcons : m.storeAll (w :: writes) =
        (m.set w.address w.value w.length).state.storeAll writes := rfl
    rw [hcons, hset, hrest]
    rfl

/-- What the observers are told of a write. -/
def writeNotices (m : Memory) (w : StoreRequest) : List Signal :=
  m.notify .write w.address w.length (Word.low w.value w.length)

/-- A request to store that is carried out: every write is allowed and made, each is told to the
observers, and nobody else is told anything but undo records. -/
structure Made (m : Memory) (writes : List StoreRequest) (s : Step Memory (Option Answer)) :
    Prop where
  answered : s.answer.isSome = true
  allowed : ∀ w ∈ writes, m.accepts w = true
  state : s.state = m.storeAll writes
  notices : Signal.notices s.signals = writes.flatMap m.writeNotices

theorem accepts_of_locate (h : m.locate .write a length = .ok seg) (v : UInt32) :
    m.accepts ⟨a, v, length⟩ = true := by
  rw [accepts, h]
  rfl

theorem Made.ofSet (h : m.locate .write a length = .ok seg) (v : UInt32) (answer : Answer)
    (extra : List Signal) (hextra : Signal.notices extra = []) :
    Made m [⟨a, v, length⟩] ⟨some answer, (m.set a v length).state,
      (m.set a v length).signals ++ extra⟩ where
  answered := rfl
  allowed := by
    intro w hw
    obtain rfl := List.mem_singleton.mp hw
    exact accepts_of_locate h v
  state := rfl
  notices := by
    have hsignals : (m.set a v length).signals = m.writeNotices ⟨a, v, length⟩ := by
      obtain ⟨image, fits, hframe⟩ := replace_frame m seg a v length
      rw [set_eq_replace h, hframe]
      rfl
    have hkept : Signal.notices (m.writeNotices ⟨a, v, length⟩) = m.writeNotices ⟨a, v, length⟩ :=
      notices_notify m .write a length _
    rw [Signal.notices] at hextra hkept ⊢
    simp [List.filter_append, hsignals, hkept, hextra]

/-- A store is refused or made, for every kind of store. -/
def Decided (m : Memory) (writes : List StoreRequest) (s : Step Memory (Option Answer)) : Prop :=
  s = .quiet none m ∨ Made m writes s

theorem decided_set (m : Memory) (a v : UInt32) (length : Nat) (wrap : UInt32 → Answer) :
    Decided m [⟨a, v, length⟩] ((m.set a v length).map fun r => r.toOption.map wrap) := by
  cases hl : m.locate .write a length with
  | error fault =>
    left
    rw [set_of_fault hl]
    rfl
  | ok seg =>
    right
    have hmade := Made.ofSet hl v (wrap (m.replace seg a v length).1) [] rfl
    rw [List.append_nil] at hmade
    rw [set_eq_replace hl] at hmade ⊢
    exact hmade

theorem decided_setAligned (m : Memory) (a v : UInt32) (length : Nat)
    (record : UInt32 → UInt32 → UndoRecord) (wrap : UInt32 → Answer) :
    Decided m [⟨a, v, length⟩]
      ((m.setAligned a v length record).map fun r => r.toOption.map wrap) := by
  by_cases haligned : a.toNat % length = 0
  · cases hl : m.locate .write a length with
    | error fault =>
      left
      rw [setAligned, checkAligned, if_pos haligned, Step.guarded, set_of_fault hl]
      rfl
    | ok seg =>
      right
      obtain ⟨image, fits, hframe⟩ := replace_frame m seg a v length
      have hmade := Made.ofSet hl v (wrap (m.replace seg a v length).1)
        (Sink.signals m.sink (record a (m.replace seg a v length).1)) (notices_sent _ _)
      rw [set_eq_replace hl] at hmade
      rw [setAligned, checkAligned, if_pos haligned, Step.guarded, set_eq_replace hl]
      have hsink : (m.replace seg a v length).2.sink = m.sink := by
        rw [hframe]
        rfl
      simp only [Step.thenTry, Step.andThen, Step.guarded, Step.map, hsink]
      exact hmade
  · left
    rw [setAligned, checkAligned, if_neg haligned]
    rfl

theorem Made.ofDouble {low high : Segment} (h : WordPair m a low high) (d : UInt64)
    (answer : Answer) (extra : List Signal) (hextra : Signal.notices extra = []) :
    Made m (DoubleWord.writes a d) ⟨some answer, (m.storeDouble a d).state,
      (m.storeDouble a d).signals ++ extra⟩ where
  answered := rfl
  allowed := by
    intro w hw
    simp only [DoubleWord.writes, List.mem_cons, List.not_mem_nil, or_false] at hw
    rcases hw with rfl | rfl
    · exact accepts_of_locate (h.lower .write) _
    · exact accepts_of_locate (h.upper .write) _
  state := by
    have hupper : (m.putWord low a (DoubleWord.lowWord d)).locate .write (a + 4) 4 = .ok high :=
      h.upper .write
    have hall : m.storeAll (DoubleWord.writes a d) =
        ((m.set a (DoubleWord.lowWord d) 4).state.set (a + 4) (DoubleWord.highWord d) 4).state :=
      rfl
    rw [hall, set_word h.aligned (h.lower .write), set_word h.upper_aligned hupper,
      storeDouble_of_pair h]
  notices := by
    have hlow := notices_notify m .write a 4 (DoubleWord.lowWord d)
    have hhigh := notices_notify m .write (a + 4) 4 (DoubleWord.highWord d)
    rw [Signal.notices] at hextra hlow hhigh ⊢
    simp [storeDouble_of_pair h, List.filter_append, hlow, hhigh, hextra, DoubleWord.writes,
      writeNotices, Word.low_whole]

theorem decided_storeDouble (m : Memory) (a : UInt32) (d : UInt64) (wrap : UInt64 → Answer) :
    Decided m (DoubleWord.writes a d)
      ((m.storeDouble a d).map fun r => r.toOption.map wrap) := by
  rcases m.storeDouble_cases_pair a d with ⟨low, high, hpair⟩ | ⟨fault, hfault⟩
  · right
    have hmade := Made.ofDouble hpair d
      (wrap (DoubleWord.ofWords (m.wordAt low a) (m.wordAt high (a + 4)))) [] rfl
    rw [List.append_nil] at hmade
    rw [storeDouble_of_pair hpair] at hmade ⊢
    exact hmade
  · left
    rw [hfault]
    rfl

theorem decided_setDouble (m : Memory) (a : UInt32) (d : UInt64) (wrap : UInt64 → Answer) :
    Decided m (DoubleWord.writes a d) ((m.setDouble a d).map fun r => r.toOption.map wrap) := by
  rcases m.storeDouble_cases_pair a d with ⟨low, high, hpair⟩ | ⟨fault, hfault⟩
  · right
    have hmade := Made.ofDouble hpair d
      (wrap (DoubleWord.ofWords (m.wordAt low a) (m.wordAt high (a + 4))))
      (Sink.signals m.sink
        (.doubleWord a (DoubleWord.ofWords (m.wordAt low a) (m.wordAt high (a + 4)))))
      (notices_sent _ _)
    rw [storeDouble_of_pair hpair] at hmade
    rw [setDouble_of_pair hpair]
    exact hmade
  · left
    rw [setDouble, hfault]
    rfl

theorem decided_restore (m : Memory) (record : UndoRecord) :
    Decided m record.writes ((m.restore record).map fun r => r.toOption.map fun _ => .done) := by
  have hplain : ∀ a v length, Decided m [⟨a, v, length⟩] (((m.set a v length).map
      (·.map fun _ => ())).map fun r => r.toOption.map fun _ => .done) := by
    intro a v length
    rw [Step.map_forget]
    exact m.decided_set a v length fun _ => .done
  cases record with
  | word a v => exact hplain a v 4
  | half a v => exact hplain a v 2
  | byte a v => exact hplain a v 1
  | rawWord a v =>
    rw [restore]
    cases checkAligned .write a 4 with
    | error fault => exact .inl rfl
    | ok _ => exact hplain a v 4
  | doubleWord a d =>
    rw [restore, Step.map_forget]
    exact m.decided_storeDouble a d fun _ => .done
  | register n v | floatRegister n v | controlRegister n v | programCounter v =>
    exact .inr ⟨rfl, List.forall_mem_nil _, rfl, rfl⟩

theorem decided_storeAs (m : Memory) (kind : AccessKind) (a : UInt32) (d : UInt64) :
    Decided m (MemoryRequest.store kind a d).writes ((m.storeAs a d kind).map Except.toOption) := by
  cases kind with
  | bytes length =>
    rw [storeAs, Step.map_toOption]
    exact m.decided_set a (DoubleWord.lowWord d) length .word
  | byte =>
    rw [storeAs, Step.map_toOption]
    exact m.decided_setAligned a (DoubleWord.lowWord d) 1 .byte .word
  | half =>
    rw [storeAs, Step.map_toOption]
    exact m.decided_setAligned a (DoubleWord.lowWord d) 2 .half .word
  | word =>
    rw [storeAs, Step.map_toOption]
    exact m.decided_setAligned a (DoubleWord.lowWord d) 4 .word .word
  | double =>
    rw [storeAs, Step.map_toOption]
    exact m.decided_setDouble a d .double

/-- A request that stores is refused, with nothing changed and nobody told, or it is carried
out. -/
theorem decided_serve (m : Memory) (id : ObserverId) {request : MemoryRequest}
    (h : request.stores = true) : Decided m request.writes (m.serve id request) := by
  cases request with
  | store kind a d => exact m.decided_storeAs kind a d
  | storeRaw a v => exact m.decided_setAligned a v 4 .rawWord .word
  | restore record => exact m.decided_restore record
  | _ => cases h

/-- A store of some bytes answers what they were before. -/
theorem answer_storeBytes (h : m.locate .write a length = .ok seg) (id : ObserverId) (d : UInt64) :
    (m.serve id (.store (.bytes length) a d)).answer =
      some (.word (m.replace seg a (DoubleWord.lowWord d) length).1) := by
  rw [serve, storeAs, set_eq_replace h]
  rfl

theorem state_stores (m : Memory) (id : ObserverId) {request : MemoryRequest}
    (h : request.stores = true) :
    ∃ image fits, (m.serve id request).state = m.withImage image fits := by
  rcases m.decided_serve id h with hrefused | hmade
  · rw [hrefused]
    exact ⟨m.image, m.fits, rfl⟩
  · rw [hmade.state]
    exact m.storeAll_frame request.writes

theorem state_install (m : Memory) (id : ObserverId) (a : UInt32) (st : Statement) :
    ∃ image fits, (m.serve id (.install a st)).state = m.withImage image fits := by
  rw [serve, setStatement]
  cases m.checkText .write a with
  | error fault => exact ⟨m.image, m.fits, rfl⟩
  | ok _ => exact ⟨_, (m.putStatement a st).fits, rfl⟩

theorem state_allocate (m : Memory) (id : ObserverId) (size : Int) :
    ∃ heap, (m.serve id (.allocate size)).state = { m with heap } := by
  rw [serve, allocate]
  split
  · exact ⟨m.heap, rfl⟩
  · dsimp only
    split
    · exact ⟨_, rfl⟩
    · exact ⟨m.heap, rfl⟩

theorem state_observe (m : Memory) (id : ObserverId) (region : Region) :
    ∃ registrations, (m.serve id (.observe region)).state = { m with registrations } := by
  have hrange : ∀ first last, ∃ registrations,
      (m.serve id (.observe (.range first last))).state = { m with registrations } := by
    intro first last
    rw [serve, register, observeRange]
    split
    · exact ⟨m.registrations, rfl⟩
    · split
      · exact ⟨m.registrations, rfl⟩
      · exact ⟨_, rfl⟩
  cases region with
  | everywhere => exact ⟨_, rfl⟩
  | place a => exact hrange a a
  | range first last => exact hrange first last

/-- A request that neither stores nor installs a statement nor empties the memory leaves its
layout and its contents alone. -/
theorem serve_keeps_contents (m : Memory) (id : ObserverId) {request : MemoryRequest}
    (hs : request.stores = false) (hi : request.installs = false) (he : request.empties = false) :
    (m.serve id request).state.layout = m.layout ∧ (m.serve id request).state.image = m.image := by
  cases request with
  | store kind a d => cases hs
  | storeRaw a v => cases hs
  | restore record => cases hs
  | install a st => cases hi
  | clear => cases he
  | setLayout l => cases he
  | allocate size =>
    obtain ⟨heap, hstate⟩ := m.state_allocate id size
    rw [hstate]
    exact ⟨rfl, rfl⟩
  | observe region =>
    obtain ⟨registrations, hstate⟩ := m.state_observe id region
    rw [hstate]
    exact ⟨rfl, rfl⟩
  | _ => exact ⟨rfl, rfl⟩

theorem layout_serve (m : Memory) (id : ObserverId) {request : MemoryRequest}
    (he : request.empties = false) : (m.serve id request).state.layout = m.layout := by
  cases hs : request.stores with
  | true =>
    obtain ⟨image, fits, hstate⟩ := m.state_stores id hs
    rw [hstate]
    rfl
  | false =>
    cases hi : request.installs with
    | false => exact (m.serve_keeps_contents id hs hi he).1
    | true =>
      cases request with
      | install a st =>
        obtain ⟨image, fits, hstate⟩ := m.state_install id a st
        rw [hstate]
        rfl
      | _ => cases hi

end Memory
end ArchState
