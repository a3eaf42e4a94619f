import Mathlib.Logic.Function.Basic
import ArchState.Proofs.Memory.Request

/-! # Copies

A memory takes over what another memory holds, or nothing of it. The tables are copied one by
one, but since their lengths follow from the layouts, either all of them can be copied or none
is. A copy answers every request as its source would, and neither of them is changed by what the
other one is asked later.
-/
namespace ArchState

/-- Copies the tables one after the other. A table of another length ends the copy, and the
tables before it are replaced by then. -/
def Image.copyTables (im source : Image) : Bool × Image :=
  match im.text.copyFrom? source.text with
  | none => (false, im)
  | some text =>
    match im.data.copyFrom? source.data with
    | none => (false, { im with text })
    | some data =>
      match im.stack.copyFrom? source.stack with
      | none => (false, { im with text, data })
      | some stack =>
        match im.mmio.copyFrom? source.mmio with
        | none => (false, { im with text, data, stack })
        | some mmio => (true, ⟨text, data, stack, mmio⟩)

theorem BlockTable.copyFrom?_of_length {α : Type} {t source : BlockTable α}
    (h : t.length = source.length) : t.copyFrom? source = some source := by
  rw [copyFrom?, if_pos h.symm]

theorem Image.copyTables_of_length {im source : Image}
    (h : ∀ seg, im.length seg = source.length seg) : im.copyTables source = (true, source) := by
  have htext := BlockTable.copyFrom?_of_length (h .text)
  have hdata := BlockTable.copyFrom?_of_length (h .data)
  have hstack := BlockTable.copyFrom?_of_length (h .stack)
  have hmmio := BlockTable.copyFrom?_of_length (h .mmio)
  simp only [copyTables, htext, hdata, hstack, hmmio]

namespace Memory
variable {m n c : Memory}

theorem sameShape_iff :
    m.sameShape n = true ↔ ∀ seg, m.segments.blocks seg = n.segments.blocks seg := by
  rw [sameShape, List.all_eq_true]
  constructor
  · intro h seg
    exact (eq_of_beq (h seg (Segment.mem_all seg))).symm
  · intro h seg _
    rw [beq_iff_eq, h seg]

/-- Memories of one shape can be copied table by table. -/
theorem copyTables_of_sameShape (h : m.sameShape n = true) :
    m.image.copyTables n.image = (true, n.image) := by
  apply Image.copyTables_of_length
  intro seg
  rw [m.fits seg, n.fits seg]
  exact sameShape_iff.mp h seg

/-- What one memory shows at every address, the other one shows as well. -/
structure Mirrors (m n : Memory) : Prop where
  layout : m.layout = n.layout
  segments : m.segments = n.segments
  heap : m.heap = n.heap
  words : ∀ a, m.rawWord? a = n.rawWord? a
  statements : ∀ a, m.fetchStatement a = n.fetchStatement a

/-- Two memories with the same settings, observers and sink, whatever they hold. -/
structure SetUpAlike (m n : Memory) : Prop where
  registrations : m.registrations = n.registrations
  decoder : m.decoder = n.decoder
  selfModifying : m.selfModifying = n.selfModifying
  sink : m.sink = n.sink

theorem mirrors_of_copyFrom? (h : m.copyFrom? n = some c) :
    c.Mirrors n ∧ c.SetUpAlike m ∧ c.image = n.image := by
  obtain rfl := copyFrom?_eq_some h
  exact ⟨⟨rfl, rfl, rfl, fun _ => rfl, fun _ => rfl⟩, ⟨rfl, rfl, rfl, rfl⟩, rfl⟩

theorem copyFrom?_isSome_iff :
    (m.copyFrom? n).isSome = true ↔ ∀ seg, m.segments.blocks seg = n.segments.blocks seg := by
  rw [← sameShape_iff, copyFrom?]
  split <;> simp_all

theorem copyFrom?_self (m : Memory) : m.copyFrom? m = some m := by
  rw [copyFrom?, if_pos (sameShape_iff.mpr fun _ => rfl)]

/-- A memory that nobody observes and that sends no records. -/
def unwatched (m : Memory) : Memory := { m with registrations := [], sink := none }

/-- Two steps that answer alike and leave the same, observers and sinks apart. -/
structure Alike {α : Type} (s t : Step Memory α) : Prop where
  answer : s.answer = t.answer
  state : s.state.unwatched = t.state.unwatched

section
variable {α β : Type} {s t : Step Memory (Except AddressFault α)}

theorem Alike.map (h : Alike s t) (f : Except AddressFault α → β) : Alike (s.map f) (t.map f) :=
  ⟨congrArg f h.answer, h.state⟩

/-- What two steps send in the end makes no difference. -/
theorem Alike.sent (h : Alike s t) (f g : α → Memory → List Signal) :
    Alike (s.thenTry fun old m => ⟨.ok old, m, f old m⟩)
      (t.thenTry fun old m => ⟨.ok old, m, g old m⟩) := by
  obtain ⟨answer, state, signals⟩ := s
  obtain ⟨answer', state', signals'⟩ := t
  obtain ⟨rfl, hstate⟩ := h
  cases answer with
  | error fault => exact ⟨rfl, hstate⟩
  | ok old => exact ⟨rfl, hstate⟩

end

theorem alike_storeParts (m : Memory) (seg : Segment) (v old : UInt32) (ps : List Part) :
    Alike (m.unwatched.storeParts seg v old ps) (m.storeParts seg v old ps) := by
  induction ps generalizing m old with
  | nil => exact ⟨rfl, rfl⟩
  | cons p ps ih =>
    have hsize : m.unwatched.segments.slot seg p.address < m.unwatched.image.length seg * blockWords
        ↔ m.segments.slot seg p.address < m.image.length seg * blockWords := Iff.rfl
    rw [storeParts, storeParts]
    by_cases hlt : m.segments.slot seg p.address < m.image.length seg * blockWords
    · rw [if_pos hlt, if_pos (hsize.mpr hlt)]
      exact ih (m.writePart seg v p) (old ||| m.loadPart seg p)
    · rw [if_neg hlt, if_neg fun h => hlt (hsize.mp h)]
      exact ⟨rfl, rfl⟩

theorem alike_store (m : Memory) (a v : UInt32) (length : Nat) :
    Alike (m.unwatched.store a v length) (m.store a v length) := by
  have htarget : m.unwatched.storeTarget a length = m.storeTarget a length := rfl
  rw [store, store, htarget]
  cases m.storeTarget a length with
  | error fault => exact ⟨rfl, rfl⟩
  | ok seg => exact m.alike_storeParts seg v 0 (parts a length)

theorem alike_set (m : Memory) (a v : UInt32) (length : Nat) :
    Alike (m.unwatched.set a v length) (m.set a v length) := (m.alike_store a v length).sent _ _

theorem alike_setAligned (m : Memory) (a v : UInt32) (length : Nat)
    (record : UInt32 → UInt32 → UndoRecord) :
    Alike (m.unwatched.setAligned a v length record) (m.setAligned a v length record) := by
  rw [setAligned, setAligned]
  cases checkAligned .write a length with
  | error fault => exact ⟨rfl, rfl⟩
  | ok _ => exact (m.alike_set a v length).sent _ _

theorem alike_storeDouble (m : Memory) (a : UInt32) (d : UInt64) :
    Alike (m.unwatched.storeDouble a d) (m.storeDouble a d) := by
  cases hcheck : m.checkDoubleStore a with
  | error fault =>
    have hcheck' : m.unwatched.checkDoubleStore a = .error fault := hcheck
    rw [storeDouble, storeDouble, hcheck, hcheck']
    exact ⟨rfl, rfl⟩
  | ok b =>
    obtain ⟨haligned, hinside, -, ⟨low, hlow⟩, high, hhigh⟩ := checkDoubleStore_eq_ok_iff.mp hcheck
    have hpair := wordPair_of_locate haligned hinside hlow hhigh
    have hpair' : m.unwatched.WordPair a low high :=
      ⟨hpair.aligned, hpair.inside, hpair.lower, hpair.upper⟩
    rw [storeDouble_of_pair hpair, storeDouble_of_pair hpair']
    exact ⟨rfl, rfl⟩

theorem alike_restore (m : Memory) (record : UndoRecord) :
    Alike (m.unwatched.restore record) (m.restore record) := by
  cases record with
  | word a v => exact (m.alike_set a v 4).map _
  | half a v => exact (m.alike_set a v 2).map _
  | byte a v => exact (m.alike_set a v 1).map _
  | rawWord a v =>
    rw [restore, restore]
    cases checkAligned .write a 4 with
    | error fault => exact ⟨rfl, rfl⟩
    | ok _ => exact (m.alike_set a v 4).map _
  | doubleWord a d => exact (m.alike_storeDouble a d).map _
  | register n v | floatRegister n v | controlRegister n v | programCounter v => exact ⟨rfl, rfl⟩

theorem alike_storeAs (m : Memory) (kind : AccessKind) (a : UInt32) (d : UInt64) :
    Alike (m.unwatched.storeAs a d kind) (m.storeAs a d kind) := by
  cases kind with
  | bytes length => exact (m.alike_set a _ length).map _
  | byte => exact (m.alike_setAligned a _ 1 .byte).map _
  | half => exact (m.alike_setAligned a _ 2 .half).map _
  | word => exact (m.alike_setAligned a _ 4 .word).map _
  | double => exact ((m.alike_storeDouble a d).sent _ _).map _

theorem alike_reading {r s : Reading (Except AddressFault Answer)} (h : r.answer = s.answer) :
    Alike (m.unwatched.reading r) (m.reading s) := ⟨congrArg Except.toOption h, rfl⟩

theorem answer_loadAs_unwatched (m : Memory) (kind : AccessKind) (a : UInt32) :
    (m.unwatched.loadAs a kind).answer = (m.loadAs a kind).answer := by
  have hfetch : m.unwatched.fetch = m.fetch := rfl
  have haligned : ∀ length, ((m.unwatched.getAligned a length).map (·.map Answer.word)).answer =
      ((m.getAligned a length).map (·.map Answer.word)).answer := by
    intro length
    rw [getAligned, getAligned, get, get, hfetch]
    cases checkAligned .read a length with
    | error fault => rfl
    | ok _ => cases m.fetch a length <;> rfl
  cases kind with
  | bytes length =>
    rw [loadAs, loadAs, get, get, hfetch]
    cases m.fetch a length <;> rfl
  | byte => exact haligned 1
  | half => exact haligned 2
  | word => exact haligned 4
  | double =>
    rw [loadAs, loadAs, getDouble, getDouble, hfetch]
    cases upperHalf .read a with
    | error fault => rfl
    | ok b =>
      simp only [Reading.guarded]
      cases m.fetch a 4 with
      | error fault => rfl
      | ok low => cases m.fetch b 4 <;> rfl

theorem firstNull_unwatched (m : Memory) (a limit : UInt32) :
    m.unwatched.firstNull a limit = m.firstNull a limit := by
  have hraw : m.unwatched.rawWord? = m.rawWord? := rfl
  fun_induction firstNull m a limit with
  | case1 a hlt fault hfault =>
    rw [firstNull, if_pos hlt, hraw, hfault]
  | case2 a hlt hnull =>
    rw [firstNull, if_pos hlt, hraw, hnull]
  | case3 a hlt w hword hinside ih =>
    rw [firstNull, if_pos hlt, hraw, hword]
    dsimp only
    rw [if_pos hinside]
    exact ih
  | case4 a hlt w hword houtside =>
    rw [firstNull, if_pos hlt, hraw, hword]
    dsimp only
    rw [if_neg houtside]
  | case5 a hge =>
    rw [firstNull, if_neg hge]

theorem alike_allocate (m : Memory) (id : ObserverId) (size : Int) :
    Alike (m.unwatched.serve id (.allocate size)) (m.serve id (.allocate size)) := by
  rw [serve, serve, allocate, allocate]
  by_cases hnegative : size < 0
  · rw [if_pos hnegative, if_pos hnegative]
    exact ⟨rfl, rfl⟩
  rw [if_neg hnegative, if_neg hnegative]
  dsimp only
  have hroom : m.unwatched.heap = m.heap ∧ m.unwatched.segments = m.segments := ⟨rfl, rfl⟩
  rw [hroom.1, hroom.2]
  split
  · exact ⟨rfl, rfl⟩
  · exact ⟨rfl, rfl⟩

theorem alike_observeRange (m : Memory) (id : ObserverId) (first last : UInt32) :
    Alike (m.unwatched.serve id (.observe (.range first last)))
      (m.serve id (.observe (.range first last))) := by
  rw [serve, serve, register, register, observeRange, observeRange]
  split
  · exact ⟨rfl, rfl⟩
  · split <;> exact ⟨rfl, rfl⟩

/-- Observers and sinks make no difference to what a memory answers and leaves, unless it is asked
for an observer. -/
theorem alike_serve (m : Memory) (id : ObserverId) {request : MemoryRequest}
    (h : ∀ old, request ≠ .unobserve old) :
    Alike (m.unwatched.serve id request) (m.serve id request) := by
  cases request with
  | load kind a => exact alike_reading (m.answer_loadAs_unwatched kind a)
  | store kind a d => exact (m.alike_storeAs kind a d).map _
  | storeRaw a v =>
    rw [serve, serve]
    exact (m.alike_setAligned a v 4 .rawWord).map _
  | readStatement a =>
    apply alike_reading
    have hfetch : m.unwatched.fetchStatement = m.fetchStatement := rfl
    rw [getStatement, getStatement, hfetch]
    cases m.fetchStatement a <;> rfl
  | install a st =>
    have hcheck : m.unwatched.checkText .write a = m.checkText .write a := rfl
    rw [serve, serve, setStatement, setStatement, hcheck]
    cases m.checkText .write a <;> exact ⟨rfl, rfl⟩
  | restore record =>
    rw [serve, serve]
    exact (m.alike_restore record).map _
  | inspect query =>
    cases query with
    | firstNull a limit =>
      have hsearch := congrArg (·.toOption.map Answer.word) (m.firstNull_unwatched a limit)
      exact ⟨hsearch, rfl⟩
    | _ => exact ⟨rfl, rfl⟩
  | allocate size => exact m.alike_allocate id size
  | observe region =>
    cases region with
    | everywhere => exact ⟨rfl, rfl⟩
    | place a => exact m.alike_observeRange id a a
    | range first last => exact m.alike_observeRange id first last
  | unobserve old => exact absurd rfl (h old)
  | _ => exact ⟨rfl, rfl⟩

/-- What a memory answers to one request after the other. -/
def answers (m : Memory) : List (ObserverId × MemoryRequest) → List (Option Answer)
  | [] => []
  | (id, request) :: later =>
    (m.serve id request).answer :: (m.serve id request).state.answers later

theorem answers_congr {later : List (ObserverId × MemoryRequest)}
    (h : ∀ r ∈ later, ∀ old, r.2 ≠ .unobserve old) (hmn : m.unwatched = n.unwatched) :
    m.answers later = n.answers later := by
  induction later generalizing m n with
  | nil => rfl
  | cons r later ih =>
    obtain ⟨id, request⟩ := r
    have hr := h _ List.mem_cons_self
    have hm := m.alike_serve id hr
    have hn := n.alike_serve id hr
    rw [← hmn] at hn
    have hanswer : (m.serve id request).answer = (n.serve id request).answer :=
      hm.answer.symm.trans hn.answer
    have hstate : (m.serve id request).state.unwatched = (n.serve id request).state.unwatched :=
      hm.state.symm.trans hn.state
    rw [answers, answers, hanswer, ih (fun r' hr' => h r' (List.mem_cons_of_mem _ hr')) hstate]

theorem unwatched_of_copyFrom? (h : m.copyFrom? n = some c) (hdecoder : n.decoder = m.decoder)
    (hself : n.selfModifying = m.selfModifying) : c.unwatched = n.unwatched := by
  obtain rfl := copyFrom?_eq_some h
  simp only [unwatched, hdecoder, hself]

end Memory

/-- Some memories that live side by side. -/
abbrev Family (ι : Type) := ι → Memory

namespace Family
variable {ι : Type}

inductive Request (ι : Type) where
  | ask (i : ι) (id : ObserverId) (request : MemoryRequest)
  | copy (target source : ι)

/-- The memory that a request is made to. -/
def Request.target : Request ι → ι
  | ask i _ _ => i
  | copy target _ => target

def copies (f : Family ι) (target source : ι) : Bool := ((f target).copyFrom? (f source)).isSome

variable [DecidableEq ι]

def after (f : Family ι) : Request ι → Family ι
  | .ask i id request => Function.update f i ((f i).serve id request).state
  | .copy target source =>
    Function.update f target (((f target).copyFrom? (f source)).getD (f target))

def run (f : Family ι) (requests : List (Request ι)) : Family ι := requests.foldl after f

theorem after_of_ne (f : Family ι) {request : Request ι} {i : ι} (h : request.target ≠ i) :
    f.after request i = f i := by
  cases request with
  | ask j id request => exact Function.update_of_ne h.symm _ f
  | copy target source => exact Function.update_of_ne h.symm _ f

theorem run_of_ne (f : Family ι) {requests : List (Request ι)} {i : ι}
    (h : ∀ r ∈ requests, r.target ≠ i) : f.run requests i = f i := by
  induction requests generalizing f with
  | nil => rfl
  | cons r requests ih =>
    have hfirst : f.after r i = f i := f.after_of_ne (h r List.mem_cons_self)
    have hrest := ih (f.after r) fun r' hr' => h r' (List.mem_cons_of_mem r hr')
    exact hrest.trans hfirst

theorem after_copy_target (f : Family ι) (target source : ι) :
    f.after (.copy target source) target =
      ((f target).copyFrom? (f source)).getD (f target) := Function.update_self target _ f

theorem after_copy_source (f : Family ι) (target source : ι) :
    f.after (.copy target source) source = f source := by
  by_cases h : target = source
  · subst h
    rw [after_copy_target, Memory.copyFrom?_self]
    rfl
  · exact f.after_of_ne h

theorem after_copy_refused {f : Family ι} {target source : ι}
    (h : f.copies target source = false) : f.after (.copy target source) = f := by
  have hnone : (f target).copyFrom? (f source) = none := by
    simpa [copies] using h
  funext i
  by_cases hi : i = target
  · rw [hi, after_copy_target, hnone]
    rfl
  · exact f.after_of_ne (Ne.symm hi)

/-- A memory becomes a copy of another one exactly when both need as many blocks for each segment.
Then it holds what its source holds under the layout of the source, but keeps its own observers,
decoder, switch and sink. All four tables have the lengths that the layouts prescribe, so none of
them is refused. Set up alike, copy and source answer all later requests alike, and neither is
changed by what other memories are asked. A copy that is refused changes nothing. -/
theorem copy_all_or_nothing (f : Family ι) (target source : ι) :
    let g := f.after (.copy target source)
    (∀ i seg, (f i).image.length seg = (f i).segments.blocks seg) ∧
    (f.copies target source = true ↔
      ∀ seg, (f target).segments.blocks seg = (f source).segments.blocks seg) ∧
    (f.copies target source = true →
      (g target).Mirrors (f source) ∧ (g target).SetUpAlike (f target) ∧
      (f target).image.copyTables (f source).image = (true, (g target).image) ∧
      ((f source).decoder = (f target).decoder →
        (f source).selfModifying = (f target).selfModifying →
        ∀ later, (∀ r ∈ later, ∀ old, r.2 ≠ .unobserve old) →
          (g target).answers later = (g source).answers later)) ∧
    (f.copies target source = false → g = f) ∧
    g source = f source ∧ (∀ i ≠ target, g i = f i) ∧
    ∀ later i, (∀ r ∈ later, r.target ≠ i) → g.run later i = g i := by
  intro g
  have htarget : g target = ((f target).copyFrom? (f source)).getD (f target) :=
    f.after_copy_target target source
  have hsource : g source = f source := f.after_copy_source target source
  have hother : ∀ i ≠ target, g i = f i := fun i hi => f.after_of_ne (Ne.symm hi)
  refine ⟨fun i => (f i).fits, Memory.copyFrom?_isSome_iff, ?_, after_copy_refused, hsource, hother,
    fun later i h => g.run_of_ne h⟩
  · intro h
    obtain ⟨c, hcopy⟩ := Option.isSome_iff_exists.mp h
    have hc : g target = c := by
      rw [htarget, hcopy]
      rfl
    obtain ⟨hmirrors, halike, himage⟩ := Memory.mirrors_of_copyFrom? hcopy
    have hshape : (f target).sameShape (f source) = true :=
      Memory.sameShape_iff.mpr (Memory.copyFrom?_isSome_iff.mp h)
    rw [hc, himage]
    refine ⟨hmirrors, halike, Memory.copyTables_of_sameShape hshape, ?_⟩
    intro hdecoder hself later hlater
    rw [hsource]
    exact Memory.answers_congr hlater (Memory.unwatched_of_copyFrom? hcopy hdecoder hself)

theorem serve_storeWord {m : Memory} {seg : Segment} {a : UInt32} (haligned : a.toNat % 4 = 0)
    (h : m.locate .write a 4 = .ok seg) (id : ObserverId) (d : UInt64) :
    (m.serve id (.store .word a d)).state = m.putWord seg a (DoubleWord.lowWord d) := by
  have hset := congrArg Step.state (Memory.setWord_of_locate haligned h (DoubleWord.lowWord d))
  exact hset

theorem rawWord?_putWord {m : Memory} {seg : Segment} {a : UInt32} (hd : m.decoder.Faithful)
    (haligned : a.toNat % 4 = 0) (h : m.locate .write a 4 = .ok seg) (w : UInt32) :
    (m.putWord seg a w).rawWord? a = .ok (some w) := by
  have hin := (Memory.contains_of_locate h).1
  have howner : (m.putWord seg a w).segments.owner? a = some seg :=
    (Memory.locate_eq_ok_iff.mp h).2.2.1
  rw [Memory.rawWord?, Memory.checkAligned, if_pos haligned, howner]
  change Except.ok ((m.putWord seg a w).wordAt? seg a) = _
  rw [Memory.wordAt?_putWord_iff hd hin w hin, if_pos ⟨rfl, rfl⟩]

/-- A copy takes over the layout of its source with the contents, and keeps both when the source
is written to. -/
theorem copy_keeps_what_it_took :
    let start : Family Bool := fun i =>
      .ofLayout (if i then .compactTextAtZero else .compactDataAtZero)
    let f := start.after (.ask false ⟨1⟩ (.store .word 0x100 9))
    let g := f.after (.copy true false)
    let h := g.run [.ask false ⟨1⟩ (.store .word 0x100 7)]
    (h true).layout = .compactDataAtZero ∧ (h true).rawWord? 0x100 = .ok (some 9) ∧
      (h false).rawWord? 0x100 = .ok (some 7) := by
  intro start f g h
  have hlocate : (start false).locate .write 0x100 4 = .ok .data :=
    Memory.locate_eq_ok_iff.mpr (by decide +kernel)
  have hfalse : f false = (start false).putWord .data 0x100 9 :=
    serve_storeWord (by decide) hlocate ⟨1⟩ 9
  obtain ⟨-, hcopies, hcopied, -, hsource, -, hlater⟩ := f.copy_all_or_nothing true false
  have hblocks : f.copies true false = true := by
    rw [hcopies, hfalse]
    intro seg
    cases seg <;> decide +kernel
  obtain ⟨hmirrors, -⟩ := hcopied hblocks
  have hg : g false = (start false).putWord .data 0x100 9 := hsource.trans hfalse
  have hkept : h true = g true := hlater _ true (by simp [Request.target])
  have hwritten : h false = (g false).putWord .data 0x100 7 := by
    refine serve_storeWord (by decide) ?_ ⟨1⟩ 7
    rw [hg]
    exact hlocate
  rw [hkept, hmirrors.layout, hmirrors.words, hwritten, hg, hfalse]
  refine ⟨rfl, ?_, ?_⟩
  · exact rawWord?_putWord Decoder.faithful_binary (by decide) hlocate 9
  · exact rawWord?_putWord (m := (start false).putWord .data 0x100 9) Decoder.faithful_binary
      (by decide) hlocate 7

end Family
end ArchState
