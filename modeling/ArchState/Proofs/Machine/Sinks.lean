import ArchState.Proofs.Machine.Fresh
import ArchState.Proofs.Machine.Sending

/-! # One sink for the whole machine

Memory and the register files have a sink each, and a machine sets these sinks together. As long
as none is set on its own, all of them are the sink that the machine tells, whatever memories were
swapped in and out and whatever was selected, restored or reset. A memory that was swapped out sends
no more.
-/
namespace ArchState

/-- Serves requests one after the other, those after one that is refused as well. -/
def Memory.serveAll (m : Memory) :
    List (ObserverId × MemoryRequest) → Step Memory (List (Option Answer))
  | [] => .quiet [] m
  | (id, request) :: run =>
    (m.serve id request).andThen fun answer next => (next.serveAll run).map (answer :: ·)

/-- A memory without a sink sends no record as long as none is attached. -/
theorem Memory.recordsTo_serveAll {m : Memory} (h : m.sink = none)
    {run : List (ObserverId × MemoryRequest)} (hrun : ∀ r ∈ run, r.2.attaches = false)
    (target : Sink) : Signal.recordsTo target (m.serveAll run).signals = [] := by
  induction run generalizing m with
  | nil => rfl
  | cons r run ih =>
    obtain ⟨id, request⟩ := r
    obtain ⟨records, hkept, hsent⟩ := m.sends_serve id (hrun _ List.mem_cons_self)
    rw [h] at hkept hsent
    have hrest := ih hkept fun r hr => hrun r (List.mem_cons_of_mem _ hr)
    change Signal.recordsTo target ((m.serve id request).signals ++ _) = []
    rw [Signal.recordsTo_append, hsent.silent]
    exact hrest

namespace Machine
variable {m n : Machine} {α β : Type} {sink : Option Sink}

/-- Memory and every register file send to `sink`, and so the machine tells. -/
structure SendsTo (m : Machine) (sink : Option Sink) : Prop where
  machine : m.sink = sink
  memory : m.memory.sink = sink
  integers : m.integers.sink = sink
  floats : m.floats.sink = sink
  controls : m.controls.sink = sink

namespace SendsTo

theorem inMemory (h : m.SendsTo sink) {s : Step Memory α} (hs : s.state.sink = m.memory.sink) :
    (m.inMemory s).state.SendsTo sink :=
  ⟨h.machine, hs.trans h.memory, h.integers, h.floats, h.controls⟩

theorem inIntegers (h : m.SendsTo sink) {s : Step IntegerFile α}
    (hs : s.state.sink = m.integers.sink) : (m.inIntegers s).state.SendsTo sink :=
  ⟨h.machine, h.memory, hs.trans h.integers, h.floats, h.controls⟩

theorem inFloats (h : m.SendsTo sink) {s : Step FloatFile α} (hs : s.state.sink = m.floats.sink) :
    (m.inFloats s).state.SendsTo sink :=
  ⟨h.machine, h.memory, h.integers, hs.trans h.floats, h.controls⟩

theorem inControls (h : m.SendsTo sink) {s : Step ControlFile α}
    (hs : s.state.sink = m.controls.sink) : (m.inControls s).state.SendsTo sink :=
  ⟨h.machine, h.memory, h.integers, h.floats, hs.trans h.controls⟩

theorem keeps (h : m.SendsTo sink) (hn : m.Keeps n) : n.SendsTo sink := by
  obtain ⟨hmemory, hintegers, hfloats, hcontrols⟩ := hn.sinks
  exact ⟨hn.sink.trans h.machine, hmemory.trans h.memory, hintegers.trans h.integers,
    hfloats.trans h.floats, hcontrols.trans h.controls⟩

theorem restore (h : m.SendsTo sink) (record : UndoRecord) :
    (m.restore record).state.SendsTo sink := by
  cases record with
  | register n v => exact h.inIntegers (m.integers.sends_restore n v).kept
  | floatRegister n v => exact h.inFloats rfl
  | controlRegister n v =>
    exact ⟨h.machine, h.memory, h.integers, h.floats,
      (m.controls.sink_backdoor (.number n) v).trans h.controls⟩
  | programCounter v => exact h.inIntegers (m.integers.sends_restorePc v).kept
  | word a v | half a v | byte a v | rawWord a v | doubleWord a d =>
    exact h.inMemory (m.memory.sends_restore _).kept

theorem backstep (h : m.SendsTo sink) : m.backstep.state.SendsTo sink := by
  unfold Machine.backstep
  split
  · exact h
  · rename_i record log _
    have hpopped : SendsTo { m with log := some log } sink :=
      ⟨h.machine, h.memory, h.integers, h.floats, h.controls⟩
    exact hpopped.restore record

theorem select (h : m.SendsTo sink) {identifier : String} {s : Step Machine Bool}
    (hs : m.select identifier = .ok s) : s.state.SendsTo sink := by
  rcases state_of_select hs with hsame | ⟨catalog, hlaid⟩
  · rw [hsame]
    exact h
  · rw [hlaid]
    exact h.keeps (m.keeps_laidOut catalog)

theorem register (h : m.SendsTo sink) (l : Layout) :
    (m.after (.register l)).SendsTo sink := by
  rw [after, Machine.register]
  cases m.catalog.register l with
  | error e => exact h
  | ok catalog => exact ⟨h.machine, h.memory, h.integers, h.floats, h.controls⟩

end SendsTo

theorem sendsTo_initial (harts : Nat) : (initial harts).SendsTo none := ⟨rfl, rfl, rfl, rfl, rfl⟩

theorem sendsTo_attach (m : Machine) (sink : Option Sink) : (m.attach sink).SendsTo sink :=
  ⟨rfl, rfl, rfl, rfl, rfl⟩

/-- A machine that is built sends to its log, if steps are to be undone. -/
theorem sendsTo_built {s : Settings} (h : ofSettings s = .ok m) :
    m.SendsTo (if s.general.backstep then some .log else none) := by
  obtain ⟨n, selected, hregister, hselect, rfl⟩ := ofSettings_eq_ok h
  dsimp only
  split
  · exact sendsTo_attach _ _
  · have hn : n.SendsTo none := by
      rw [(registerAll_frame hregister).1]
      exact ⟨rfl, rfl, rfl, rfl, rfl⟩
    have hselected := hn.select hselect
    exact ⟨hselected.machine, hselected.memory, hselected.integers, hselected.floats,
      hselected.controls⟩

/-- Whether a request leaves the sinks of the parts to the machine. Memory carries out a request of
its own or takes over the contents of another memory, and no part is given a sink on its own. -/
def Request.leavesSinks (m : Machine) : Request → Prop
  | .memory operation =>
    (∃ id request, request.attaches = false ∧
      operation m.memory = (m.memory.serve id request).map fun _ => ()) ∨
    ∃ source copy, m.memory.copyFrom? source = some copy ∧ operation m.memory = .quiet () copy
  | .integers request => request.attaches = false
  | .floats request => request.attaches = false
  | .controls request => request.attaches = false
  | _ => True

/-- The sink that a machine tells after a request, if it has told `sink` before. -/
def Request.sinkAfter (sink : Option Sink) : Request → Option Sink
  | .attach other => other
  | _ => sink

/-- A machine that is reached from a new one by requests that leave the sinks to it. -/
inductive Wired : Machine → Prop where
  | initial (harts : Nat) : Wired (initial harts)
  | built {s : Settings} {m : Machine} : ofSettings s = .ok m → Wired m
  | step {m : Machine} (request : Request) :
      Wired m → request.leavesSinks m → Wired (m.after request)

theorem SendsTo.after (h : m.SendsTo sink) {request : Request} (hr : request.leavesSinks m) :
    (m.after request).SendsTo (request.sinkAfter sink) := by
  cases request with
  | memory operation =>
    rcases hr with ⟨id, request, hattaches, hoperation⟩ | ⟨source, copy, hcopy, hoperation⟩
    · obtain ⟨records, hsends⟩ := m.memory.sends_serve id hattaches
      refine h.inMemory (s := operation m.memory) ?_
      rw [hoperation]
      exact hsends.kept
    · obtain rfl := Memory.copyFrom?_eq_some hcopy
      refine h.inMemory (s := operation m.memory) ?_
      rw [hoperation]
      rfl
  | integers request =>
    obtain ⟨records, hsends⟩ := m.integers.sends_serve hr
    exact h.inIntegers hsends.kept
  | floats request =>
    obtain ⟨records, hsends⟩ := m.floats.sends_serve hr
    exact h.inFloats hsends.kept
  | controls request =>
    obtain ⟨records, hsends⟩ := m.controls.sends_serve hr
    exact h.inControls hsends.kept
  | select identifier =>
    rcases m.after_select identifier with ⟨hsame, -⟩ | ⟨catalog, hlaid, -⟩
    · rw [hsame]
      exact h
    · rw [hlaid]
      exact h.keeps (m.keeps_laidOut catalog)
  | register l => exact h.register l
  | attach other => exact m.sendsTo_attach other
  | swapMemory new => exact ⟨h.machine, h.machine, h.integers, h.floats, h.controls⟩
  | enter symbols => exact h.inIntegers (m.integers.sends_restorePc _).kept
  | restore record => exact h.restore record
  | backstep => exact h.backstep
  | reset =>
    change m.reset.state.SendsTo sink
    rw [reset_eq]
    exact h.keeps m.keeps_cleared
  | reservations operation => exact ⟨h.machine, h.memory, h.integers, h.floats, h.controls⟩
  | startAtMain on => exact ⟨h.machine, h.memory, h.integers, h.floats, h.controls⟩

/-- Along every run the parts send to the sink that the machine tells. -/
theorem Wired.sendsTo (h : m.Wired) : m.SendsTo m.sink := by
  have hsome : ∃ sink, m.SendsTo sink := by
    induction h with
    | initial harts => exact ⟨none, sendsTo_initial harts⟩
    | built hbuilt => exact ⟨_, sendsTo_built hbuilt⟩
    | step _ _ hr ih =>
      obtain ⟨sink, hsends⟩ := ih
      exact ⟨_, hsends.after hr⟩
  obtain ⟨sink, hsends⟩ := hsome
  exact hsends.machine ▸ hsends

theorem recordsTo_restore (m : Machine) (record : UndoRecord) (target : Sink) :
    Signal.recordsTo target (m.restore record).signals = [] := by
  cases record with
  | register n v => exact m.integers.recordsTo_restore target n v
  | floatRegister n v => exact m.floats.recordsTo_restore target n v
  | controlRegister n v => rfl
  | programCounter v => exact m.integers.bank.recordsTo_set target Integer.programCounter v
  | word a v | half a v | byte a v | rawWord a v | doubleWord a d =>
    exact m.memory.recordsTo_restore target _

theorem recordsTo_backstep (m : Machine) (target : Sink) :
    Signal.recordsTo target m.backstep.signals = [] := by
  unfold backstep
  split
  · rfl
  · exact recordsTo_restore _ _ target

/-- An operation is refused if it answers nothing or writes register 0. -/
theorem refuses_of_answer {op : Mutation} {answer : Option UInt64}
    (h : (m.mutate op).answer = .ok answer) :
    (!m.refuses op) = (answer.isSome && !op.writesZero) := by
  cases answer with
  | none => rw [refuses_of_none h]; rfl
  | some old => rw [refuses_of_some h]; rfl

theorem refuses_of_store {op : Mutation} {s : Step Memory (Except AddressFault β)} {f : β → UInt64}
    (hop : m.mutate op = (m.inMemory s).map (Except.map fun old => some (f old)))
    (hz : op.writesZero = false) : (!m.refuses op) = s.answer.toOption.isSome := by
  have hanswer : (m.mutate op).answer = s.answer.map fun old => some (f old) := by
    rw [hop]
    rfl
  cases hs : s.answer with
  | error fault =>
    rw [hs] at hanswer
    rw [refuses_of_error hanswer]
    rfl
  | ok old =>
    rw [hs] at hanswer
    rw [refuses_of_some hanswer, hz]
    rfl

/-- An operation sends one record to `sink` unless it is refused, and no other record. -/
def SendsOne (m : Machine) (sink : Option Sink) (op : Mutation) : Prop :=
  ∃ records, records.length = (!m.refuses op).toNat ∧
    Signal.SentTo sink records (m.mutate op).signals

/-- What a part sends in an operation of the machine is what the machine sends. -/
theorem sendsOne_of_part {σ : Type} {sinkOf : σ → Option Sink} {part : σ} {s : Step σ α}
    {op : Mutation} {made : Bool} (h : s.SendsOne sinkOf part made) (hsink : sinkOf part = sink)
    (hop : (m.mutate op).signals = s.signals) (hmade : (!m.refuses op) = made) :
    m.SendsOne sink op := by
  obtain ⟨records, hlength, -, hsent⟩ := h
  rw [SendsOne, hop, hmade, ← hsink]
  exact ⟨records, hlength, hsent⟩

theorem SendsTo.sendsOne (h : m.SendsTo sink) (op : Mutation) : m.SendsOne sink op := by
  cases op with
  | word a v =>
    exact sendsOne_of_part (m.memory.sendsOne_setAligned a v 4 .word) h.memory rfl
      (refuses_of_store rfl rfl)
  | half a v =>
    exact sendsOne_of_part (m.memory.sendsOne_setAligned a v 2 .half) h.memory rfl
      (refuses_of_store rfl rfl)
  | byte a v =>
    exact sendsOne_of_part (m.memory.sendsOne_setAligned a v 1 .byte) h.memory rfl
      (refuses_of_store rfl rfl)
  | rawWord a v =>
    exact sendsOne_of_part (m.memory.sendsOne_setAligned a v 4 .rawWord) h.memory rfl
      (refuses_of_store rfl rfl)
  | doubleWord a d =>
    exact sendsOne_of_part (m.memory.sendsOne_setDouble a d) h.memory rfl
      (refuses_of_store (f := id) rfl rfl)
  | integer key value =>
    exact sendsOne_of_part (m.integers.sendsOne_update key value) h.integers rfl
      (refuses_of_answer rfl)
  | float number value =>
    exact sendsOne_of_part (m.floats.sendsOne_write _ value) h.floats rfl
      ((refuses_of_answer rfl).trans (Bool.and_true _))
  | single key bits =>
    exact sendsOne_of_part (m.floats.sendsOne_write _ (nanBox bits)) h.floats rfl
      ((refuses_of_answer rfl).trans (Bool.and_true _))
  | control key value =>
    exact sendsOne_of_part (m.controls.sendsOne_update key value) h.controls rfl
      ((refuses_of_answer rfl).trans (Bool.and_true _))
  | setBits number mask =>
    exact sendsOne_of_part (m.controls.sendsOne_modify number (· ||| mask)) h.controls rfl
      ((refuses_of_answer rfl).trans (Bool.and_true _))
  | clearBits number mask =>
    exact sendsOne_of_part (m.controls.sendsOne_modify number (· &&& ~~~mask)) h.controls rfl
      ((refuses_of_answer rfl).trans (Bool.and_true _))
  | programCounter a =>
    have hanswer : (m.mutate (.programCounter a)).answer =
        .ok (some (m.integers.setPc a).answer.toUInt64) := rfl
    exact sendsOne_of_part (Step.sendsOne_of_made (m.integers.sends_setPc a) rfl) h.integers rfl
      (refuses_of_answer hanswer)

theorem Wired.swap (h : m.Wired) (new : Memory) : (m.swapMemory new).2.Wired :=
  h.step (.swapMemory new) trivial

/-- There is one sink for the whole machine. After every run memory and the register files send
their records to the sink that the machine tells and to no other, whatever they are asked for, and
an operation sends one record unless it is refused. A memory that is swapped out stays as it is, but
without a sink, so that it sends no record in any run. The memory that is swapped in stays as it is,
but with the sink of the machine and the switch for self-modifying code. Writing records back and
stepping back send no record. -/
theorem records_go_to_one_sink (h : m.Wired) :
    m.SendsTo m.sink ∧
    (∀ id request, request.attaches = false →
      ∃ records, Signal.SentTo m.sink records (m.memory.serve id request).signals) ∧
    (∀ request, request.attaches = false →
      ∃ records, Signal.SentTo m.sink records (m.integers.serve request).signals) ∧
    (∀ request, request.attaches = false →
      ∃ records, Signal.SentTo m.sink records (m.floats.serve request).signals) ∧
    (∀ request, request.attaches = false →
      ∃ records, Signal.SentTo m.sink records (m.controls.serve request).signals) ∧
    (∀ op, m.SendsOne m.sink op) ∧
    (∀ new, (m.swapMemory new).1 = { m.memory with sink := none } ∧
      (∀ run : List (ObserverId × MemoryRequest), (∀ r ∈ run, r.2.attaches = false) →
        ∀ target, Signal.recordsTo target ((m.swapMemory new).1.serveAll run).signals = []) ∧
      (m.swapMemory new).2 = { m with memory :=
        { new with sink := m.sink, selfModifying := m.memory.selfModifying } } ∧
      (m.swapMemory new).2.Wired) ∧
    (∀ record target, Signal.recordsTo target (m.restore record).signals = []) ∧
    ∀ target, Signal.recordsTo target m.backstep.signals = [] := by
  have hsends := h.sendsTo
  refine ⟨hsends, ?_, ?_, ?_, ?_, hsends.sendsOne, ?_, m.recordsTo_restore, m.recordsTo_backstep⟩
  · intro id request hrequest
    obtain ⟨records, -, hsent⟩ := m.memory.sends_serve id hrequest
    exact ⟨records, hsends.memory ▸ hsent⟩
  · intro request hrequest
    obtain ⟨records, -, hsent⟩ := m.integers.sends_serve hrequest
    exact ⟨records, hsends.integers ▸ hsent⟩
  · intro request hrequest
    obtain ⟨records, -, hsent⟩ := m.floats.sends_serve hrequest
    exact ⟨records, hsends.floats ▸ hsent⟩
  · intro request hrequest
    obtain ⟨records, -, hsent⟩ := m.controls.sends_serve hrequest
    exact ⟨records, hsends.controls ▸ hsent⟩
  · intro new
    exact ⟨rfl, fun _ hrun => Memory.recordsTo_serveAll rfl hrun, rfl, h.swap new⟩

/-- A memory with a sink of its own is swapped into a machine that sends to another one. The store
after that is recorded there and nowhere else, and the memory before records nothing. -/
theorem swapped_memory_sends_to_machine_sink :
    let m := (initial 1).after (.attach (some (.recorder 3)))
    let new := { Memory.ofLayout .default with sink := some (.recorder 9), selfModifying := true }
    let n := (m.swapMemory new).2
    m.Wired ∧ n.SendsTo (some (.recorder 3)) ∧ n.memory.selfModifying = false ∧
      (n.mutate (.word 0x10010000 7)).answer = .ok (some 0) ∧
      Signal.SentTo (some (.recorder 3)) [.word 0x10010000 0]
        (n.mutate (.word 0x10010000 7)).signals ∧
      ∀ target, Signal.recordsTo target
        ((m.swapMemory new).1.serveAll [(⟨0⟩, .store .word 0x10010000 7)]).signals = [] := by
  intro m new n
  have hm : m.Wired := .step _ (.initial 1) trivial
  obtain ⟨-, -, -, -, -, -, hswap, -⟩ := records_go_to_one_sink hm
  obtain ⟨-, hsilent, -, hn⟩ := hswap new
  obtain ⟨hsends, -, -, -, -, hone, -⟩ := records_go_to_one_sink hn
  refine ⟨hm, hsends, rfl, by decide +kernel, ?_, ?_⟩
  · obtain ⟨records, -, hsent⟩ := hone (.word 0x10010000 7)
    have hrecords : records = [.word 0x10010000 0] :=
      (hsent (.recorder 3)).symm.trans (by decide +kernel)
    exact hrecords ▸ hsent
  · exact hsilent _ (by decide)

end Machine
end ArchState
