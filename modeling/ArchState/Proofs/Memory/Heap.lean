import ArchState.Proofs.Memory.Marks
import ArchState.Proofs.Memory.Pointers

/-! # The heap over runs

A request for some bytes gets a block that starts at the cursor, which moves to the next word
after it. Nothing else moves the cursor up and only an emptied memory takes it back, so the blocks
that are handed out in the meantime lie one after the other below the end of the data segment. They
need not lie inside it: the cursor starts at the heap of the layout, which may stand below `.data`.
-/
namespace ArchState

/-- A layout whose heap stands below its `.data`. -/
def Layout.heapBelowData : Layout where
  identifier := "HeapBelowData"
  name := "Heap below data"
  sections :=
    { text := ⟨0x4000, 0x4FFF, by decide⟩
      data := ⟨0xA000, 0xAFFF, by decide⟩
      heap := ⟨0x8000, 0x8FFF, by decide⟩
      stack := ⟨0xC000, 0xCFFF, by decide⟩
      mmio := ⟨0xF000, 0xF0FF, by decide⟩ }
  gpOffset := 0x800
  externSize := 0x100
  aligned := fun s => by cases s <;> decide
  gp_le := by decide
  extern_le := by decide

/-- The next multiple of four from `n` on. -/
def roundUp (n : Nat) : Nat := (n + 3) / 4 * 4

theorem le_roundUp (n : Nat) : n ≤ roundUp n := by
  rw [roundUp]
  omega

theorem roundUp_mod (n : Nat) : roundUp n % 4 = 0 := Nat.mul_mod_left _ 4

/-- Where the cursor moves to, computed in words of 64 bits. -/
def nextCursor (heap : UInt32) (size : UInt64) : UInt64 := (heap.toUInt64 + size + 3) &&& ~~~3

theorem toNat_and_not_three (n : UInt64) : (n &&& ~~~3).toNat = n.toNat / 4 * 4 := by
  have hmask : ∀ i < 64, (~~~(3 : UInt64)).toNat.testBit i = decide (2 ≤ i) := by decide
  have hwidth : ∀ i, 64 ≤ i → n.toNat.testBit i = false := fun i hi =>
    Nat.testBit_lt_two_pow (Nat.lt_of_lt_of_le n.toNat_lt (Nat.pow_le_pow_right (by decide) hi))
  rw [UInt64.toNat_and, and_mask hwidth hmask, Nat.shiftLeft_eq, Nat.shiftRight_eq_div_pow]

/-- For the sizes that can be asked for, no sum on the way to the next cursor wraps around. -/
theorem nextCursor_toNat (heap : UInt32) {size : Nat} (h : size ≤ 0x7FFFFFFF) :
    (nextCursor heap (UInt64.ofNat size)).toNat = (heap.toNat + size + 3) / 4 * 4 := by
  have hheap := heap.toNat_lt
  have hsize : (UInt64.ofNat size).toNat = size :=
    UInt64.toNat_ofNat_of_lt' (Nat.lt_of_le_of_lt h (by decide))
  have hthree : (3 : UInt64).toNat = 3 := rfl
  rw [nextCursor, toNat_and_not_three, UInt64.toNat_add, UInt64.toNat_add, hsize, hthree,
    UInt32.toNat_toUInt64, Nat.mod_eq_of_lt (a := heap.toNat + size) (by omega),
    Nat.mod_eq_of_lt (by omega)]

/-- A block of the heap. -/
structure HeapBlock where
  address : UInt32
  size : Nat
  deriving DecidableEq, Repr

namespace HeapBlock
variable {x y : HeapBlock}

def stop (x : HeapBlock) : Nat := x.address.toNat + x.size

def Contains (x : HeapBlock) (place : Nat) : Prop := x.address.toNat ≤ place ∧ place < x.stop

/-- No byte lies in both blocks. -/
def Apart (x y : HeapBlock) : Prop := ∀ place, ¬ (x.Contains place ∧ y.Contains place)

theorem apart_of_le (h : x.stop ≤ y.address.toNat) : x.Apart y := by
  rintro place ⟨⟨-, hx⟩, hy, -⟩
  omega

end HeapBlock

namespace Memory
variable {m n : Memory} {made : List MemoryRequest} {size : Int} {a : UInt32} {fault : HeapFault}
  {run : List (ObserverId × MemoryRequest)}

/-- Whether the bytes asked for end inside the data segment, with the cursor after them an
address. -/
def HasRoom (m : Memory) (size : Int) : Prop :=
  (m.heap.toNat + size.toNat + 3) / 4 * 4 < 0x100000000 ∧
    (m.heap.toNat + size.toNat + 3) / 4 * 4 ≤ m.segments.data.stop

theorem allocate_eq_ok_iff : m.allocate size = .ok (a, n) ↔
    0 ≤ size ∧ m.HasRoom size ∧ a = m.heap ∧
      n = { m with heap := UInt32.ofNat ((m.heap.toNat + size.toNat + 3) / 4 * 4) } := by
  rw [allocate, HasRoom]
  by_cases hnegative : size < 0
  · have hn : ¬ 0 ≤ size := by omega
    simp [hnegative, hn]
  · have hn : 0 ≤ size := by omega
    by_cases hroom : (m.heap.toNat + size.toNat + 3) / 4 * 4 < 0x100000000 ∧
        (m.heap.toNat + size.toNat + 3) / 4 * 4 ≤ m.segments.data.stop
    · simp [hnegative, hn, hroom, eq_comm]
    · simp [hnegative, hroom]

theorem allocate_eq_error_iff : m.allocate size = .error fault ↔
    (size < 0 ∧ fault = .negativeSize size) ∨
      (0 ≤ size ∧ ¬ m.HasRoom size ∧ fault = .exhausted size) := by
  rw [allocate, HasRoom]
  by_cases hnegative : size < 0
  · have hn : ¬ 0 ≤ size := by omega
    simp [hnegative, hn, eq_comm]
  · have hn : 0 ≤ size := by omega
    by_cases hroom : (m.heap.toNat + size.toNat + 3) / 4 * 4 < 0x100000000 ∧
        (m.heap.toNat + size.toNat + 3) / 4 * 4 ≤ m.segments.data.stop
    · simp [hnegative, hroom]
    · simp [hnegative, hn, hroom, eq_comm]

/-- The block that a request is answered with. -/
def granted? (m : Memory) : MemoryRequest → Option HeapBlock
  | .allocate size => (m.allocate size).toOption.map fun r => ⟨r.1, size.toNat⟩
  | _ => none

theorem heap_of_allocate (hmod : m.heap.toNat % 4 = 0) (h : m.allocate size = .ok (a, n)) :
    n.heap.toNat = m.heap.toNat + roundUp size.toNat ∧ n.heap.toNat ≤ m.segments.data.stop := by
  obtain ⟨-, hroom, -, rfl⟩ := allocate_eq_ok_iff.mp h
  have hnext : (UInt32.ofNat ((m.heap.toNat + size.toNat + 3) / 4 * 4)).toNat =
      (m.heap.toNat + size.toNat + 3) / 4 * 4 := UInt32.toNat_ofNat_of_lt' hroom.1
  change (UInt32.ofNat _).toNat = _ ∧ (UInt32.ofNat _).toNat ≤ _
  rw [hnext, roundUp]
  exact ⟨by omega, hroom.2⟩

theorem serve_allocate_of_ok (id : ObserverId) (h : m.allocate size = .ok (a, n)) :
    m.serve id (.allocate size) = .quiet (some (.word a)) n := by
  rw [serve, h]
  rfl

theorem serve_allocate_of_error (id : ObserverId) (h : m.allocate size = .error fault) :
    m.serve id (.allocate size) = .quiet none m := by
  rw [serve, h]
  rfl

/-- Only a block that is handed out moves the cursor. -/
theorem heap_serve (m : Memory) (id : ObserverId) {request : MemoryRequest}
    (he : request.empties = false) (hgranted : m.granted? request = none) :
    (m.serve id request).state.heap = m.heap := by
  cases hs : request.stores with
  | true =>
    obtain ⟨image, fits, hstate⟩ := m.state_stores id hs
    rw [hstate]
    rfl
  | false =>
    cases request with
    | store kind a d => cases hs
    | storeRaw a v => cases hs
    | restore record => cases hs
    | clear => cases he
    | setLayout l => cases he
    | install a st =>
      obtain ⟨image, fits, hstate⟩ := m.state_install id a st
      rw [hstate]
      rfl
    | observe region =>
      obtain ⟨registrations, hstate⟩ := m.state_observe id region
      rw [hstate]
    | allocate size =>
      cases h : m.allocate size with
      | error fault =>
        rw [serve_allocate_of_error id h]
        rfl
      | ok r =>
        rw [granted?, h] at hgranted
        cases hgranted
    | _ => rfl

theorem heap_serve_of_granted (id : ObserverId) {request : MemoryRequest} {block : HeapBlock}
    (hmod : m.heap.toNat % 4 = 0) (h : m.granted? request = some block) :
    block.address = m.heap ∧
      (m.serve id request).state.heap.toNat = m.heap.toNat + roundUp block.size ∧
      (m.serve id request).state.heap.toNat ≤ m.segments.data.stop := by
  cases request with
  | allocate size =>
    cases hallocate : m.allocate size with
    | error fault =>
      rw [granted?, hallocate] at h
      cases h
    | ok r =>
      rw [granted?, hallocate] at h
      cases h
      rw [serve_allocate_of_ok id hallocate]
      exact ⟨(allocate_eq_ok_iff.mp hallocate).2.2.1, heap_of_allocate hmod hallocate⟩
  | _ => cases h

/-- The cursor never goes back, unless the memory is emptied. -/
theorem heap_le_serve (id : ObserverId) {request : MemoryRequest} (he : request.empties = false)
    (hmod : m.heap.toNat % 4 = 0) :
    m.heap.toNat ≤ (m.serve id request).state.heap.toNat ∧
      (m.serve id request).state.heap.toNat % 4 = 0 := by
  cases hgranted : m.granted? request with
  | none =>
    rw [m.heap_serve id he hgranted]
    exact ⟨Nat.le_refl _, hmod⟩
  | some block =>
    obtain ⟨-, hnext, -⟩ := heap_serve_of_granted id hmod hgranted
    have hround := roundUp_mod block.size
    omega

/-- Whatever was asked of a memory, its cursor is at a multiple of four and not below the heap of
its layout. -/
theorem cursor_of_past (h : Past m made) :
    m.heap.toNat % 4 = 0 ∧ m.layout.heapBase.toNat ≤ m.heap.toNat := by
  have hfresh : ∀ l : Layout, l.heapBase.toNat % 4 = 0 ∧ l.heapBase.toNat ≤ l.heapBase.toNat :=
    fun l => ⟨l.aligned .heap, Nat.le_refl _⟩
  induction h with
  | created l => exact hfresh l
  | @served m made id request past ih =>
    cases he : request.empties with
    | false =>
      obtain ⟨hmod, hbase⟩ := ih
      obtain ⟨hup, hnext⟩ := heap_le_serve id he hmod
      rw [m.layout_serve id he]
      exact ⟨hnext, Nat.le_trans hbase hup⟩
    | true =>
      cases request with
      | clear => exact hfresh m.layout
      | setLayout l => exact hfresh l
      | _ => cases he
  | copied _ _ hcopy _ ih =>
    obtain rfl := copyFrom?_eq_some hcopy
    exact ih

/-- The memory that some requests lead to, one after the other. -/
def afterAll (m : Memory) (run : List (ObserverId × MemoryRequest)) : Memory :=
  run.foldl (fun m r => (m.serve r.1 r.2).state) m

/-- The blocks that a run hands out, the first one first. -/
def blocks (m : Memory) : List (ObserverId × MemoryRequest) → List HeapBlock
  | [] => []
  | (id, request) :: run =>
    (m.granted? request).toList ++ (m.serve id request).state.blocks run

/-- What a run of requests that leave the memory as full as it is does with the heap. -/
structure HeapRun (m : Memory) (run : List (ObserverId × MemoryRequest)) : Prop where
  layout : (m.afterAll run).layout = m.layout
  aligned : (m.afterAll run).heap.toNat % 4 = 0
  rising : m.heap.toNat ≤ (m.afterAll run).heap.toNat
  above : ∀ x ∈ m.blocks run, m.heap.toNat ≤ x.address.toNat
  inside : ∀ x ∈ m.blocks run, x.stop ≤ m.segments.data.stop
  ordered : (m.blocks run).Pairwise fun x y => x.stop ≤ y.address.toNat

theorem heapRun (hmod : m.heap.toNat % 4 = 0) (hrun : ∀ r ∈ run, r.2.empties = false) :
    m.HeapRun run := by
  induction run generalizing m with
  | nil =>
    exact ⟨rfl, hmod, Nat.le_refl _, List.forall_mem_nil _, List.forall_mem_nil _, .nil⟩
  | cons r run ih =>
    obtain ⟨id, request⟩ := r
    have he : request.empties = false := hrun _ List.mem_cons_self
    obtain ⟨hstep, hnextMod⟩ := heap_le_serve id he hmod
    have hlayout := m.layout_serve id he
    have hsegments : (m.serve id request).state.segments = m.segments := by
      rw [segments, segments, hlayout]
    obtain ⟨hkept, haligned, hrising, habove, hinside, hordered⟩ :=
      ih hnextMod fun r hr => hrun r (List.mem_cons_of_mem _ hr)
    rw [hsegments] at hinside
    have hkeeps : (m.afterAll ((id, request) :: run)).layout = m.layout := hkept.trans hlayout
    have hup := Nat.le_trans hstep hrising
    cases hgranted : m.granted? request with
    | none =>
      have hblocks : m.blocks ((id, request) :: run) = (m.serve id request).state.blocks run := by
        rw [blocks, hgranted]
        rfl
      rw [m.heap_serve id he hgranted] at habove
      exact ⟨hkeeps, haligned, hup, hblocks ▸ habove, hblocks ▸ hinside, hblocks ▸ hordered⟩
    | some block =>
      have hblocks : m.blocks ((id, request) :: run) =
          block :: (m.serve id request).state.blocks run := by
        rw [blocks, hgranted]
        rfl
      obtain ⟨haddress, hnext, hroom⟩ := heap_serve_of_granted id hmod hgranted
      -- the block ends before the cursor that the later blocks start from
      have hstop : block.stop ≤ (m.serve id request).state.heap.toNat := by
        have hround := le_roundUp block.size
        rw [HeapBlock.stop, haddress]
        omega
      refine ⟨hkeeps, haligned, hup, ?_, ?_, ?_⟩
      · rw [hblocks, List.forall_mem_cons]
        exact ⟨Nat.le_of_eq (congrArg UInt32.toNat haddress.symm),
          fun x hx => Nat.le_trans hstep (habove x hx)⟩
      · rw [hblocks, List.forall_mem_cons]
        exact ⟨Nat.le_trans hstop hroom, hinside⟩
      · rw [hblocks, List.pairwise_cons]
        exact ⟨fun x hx => Nat.le_trans hstop (habove x hx), hordered⟩

/-- How a memory answers a request for some bytes. -/
structure HeapServes (m : Memory) (size : Int) : Prop where
  negative : size < 0 → m.allocate size = .error (.negativeSize size)
  exhausted : 0 ≤ size → ¬ m.HasRoom size → m.allocate size = .error (.exhausted size)
  refused : ∀ fault, m.allocate size = .error fault →
    ∀ id, (m.serve id (.allocate size)).state = m
  granted : 0 ≤ size → m.HasRoom size → ∃ n, m.allocate size = .ok (m.heap, n) ∧
    n = { m with heap := n.heap } ∧ n.heap.toNat = m.heap.toNat + roundUp size.toNat
  computed : 0 ≤ size → size ≤ 0x7FFFFFFF →
    m.heap.toNat + size.toNat + 3 < 0x10000000000000000 ∧
      (nextCursor m.heap (UInt64.ofNat size.toNat)).toNat = m.heap.toNat + roundUp size.toNat

theorem heapServes (hmod : m.heap.toNat % 4 = 0) (size : Int) : m.HeapServes size where
  negative hn := allocate_eq_error_iff.mpr (.inl ⟨hn, rfl⟩)
  exhausted hn hroom := allocate_eq_error_iff.mpr (.inr ⟨hn, hroom, rfl⟩)
  refused fault h id := congrArg Step.state (serve_allocate_of_error id h)
  granted hn hroom := by
    have hok := allocate_eq_ok_iff.mpr ⟨hn, hroom, rfl, rfl⟩
    exact ⟨_, hok, rfl, (heap_of_allocate hmod hok).1⟩
  computed hn hle := by
    have hheap := m.heap.toNat_lt
    rw [nextCursor_toNat m.heap (by omega), roundUp]
    omega

/-- Over any run of requests that do not empty a memory the cursor stays at multiples of four and
never goes back, and the blocks that are handed out are apart from each other and end inside the
data segment. A request is answered with the cursor, which moves on by the size in whole words, or
it is refused and leaves the memory as it is. The sums fit 64 bits. -/
theorem heap_serves_run (h : Past m made) (hrun : ∀ r ∈ run, r.2.empties = false) :
    let n := m.afterAll run
    n.heap.toNat % 4 = 0 ∧ m.heap ≤ n.heap ∧ (∀ size, n.HeapServes size) ∧
      (m.blocks run).Pairwise HeapBlock.Apart ∧
      ∀ block ∈ m.blocks run, block.stop ≤ m.segments.data.stop := by
  intro n
  obtain ⟨-, haligned, hrising, -, hinside, hordered⟩ := heapRun (cursor_of_past h).1 hrun
  exact ⟨haligned, UInt32.le_iff_toNat_le.mpr hrising, heapServes haligned,
    hordered.imp HeapBlock.apart_of_le, hinside⟩

/-- Two blocks are handed out in the compact layout, one of them empty, and two requests refused. -/
theorem heap_serves_four_requests :
    let m := ofLayout .compactTextAtZero
    let run : List (ObserverId × MemoryRequest) :=
      [(⟨1⟩, .allocate 5), (⟨1⟩, .store .word 0x2004 7), (⟨1⟩, .allocate (-1)), (⟨1⟩, .allocate 0),
        (⟨1⟩, .allocate 0x1000)]
    m.blocks run = [⟨0x2000, 5⟩, ⟨0x2008, 0⟩] ∧ (m.afterAll run).heap = 0x2008 ∧
      (m.blocks run).Pairwise HeapBlock.Apart ∧ ∀ block ∈ m.blocks run, block.stop ≤ 0x3000 := by
  intro m run
  have hrun : ∀ r ∈ run, r.2.empties = false := by decide
  obtain ⟨-, -, -, hapart, hinside⟩ := heap_serves_run (.created .compactTextAtZero) hrun
  exact ⟨by decide +kernel, by decide +kernel, hapart, hinside⟩

variable {l : Layout}

theorem inSegment_data_iff (hl : m.layout = l) (b : UInt32) :
    m.inSegment .data b = true ↔
      l.sections.data.low ≤ b ∧ b.toNat < (Segments.ofLayout l).data.stop := by
  rw [inSegment, segments, hl, Bounds.contains_iff, UInt32.le_iff_toNat_le]
  exact Iff.rfl

theorem owner?_of_inSegment_data {b : UInt32} (h : m.inSegment .data b = true) :
    m.segments.owner? b = some .data := by
  rw [Segments.owner?]
  exact if_pos h

/-- A byte of a block stands where it is counted to, between the cursor and the end of the data
segment. -/
theorem place_in_block (h : Past m made) (hallocate : m.allocate size = .ok (a, n)) {i : Nat}
    (hi : i < size.toNat) :
    n.layout = m.layout ∧ m.heap.toNat ≤ (a + UInt32.ofNat i).toNat ∧
      (a + UInt32.ofNat i).toNat < m.segments.data.stop := by
  obtain ⟨hnext, hroom⟩ := heap_of_allocate (cursor_of_past h).1 hallocate
  obtain ⟨-, -, rfl, hn⟩ := allocate_eq_ok_iff.mp hallocate
  have hround := le_roundUp size.toNat
  have hlt := n.heap.toNat_lt
  have hplace : (m.heap + UInt32.ofNat i).toNat = m.heap.toNat + i := toNat_add_ofNat (by omega)
  refine ⟨?_, by omega, by omega⟩
  rw [hn]

/-- Whether every byte of every block that a memory with the layout hands out lies in the data
segment and can be loaded and stored. -/
def HandsOutData (l : Layout) : Prop :=
  ∀ m made, Past m made → m.layout = l → ∀ size a n, m.allocate size = .ok (a, n) →
    ∀ i < size.toNat, n.inSegment .data (a + UInt32.ofNat i) = true ∧
      n.Usable (a + UInt32.ofNat i) .byte

/-- A byte of a block is usable as one of the data segment if it does not stand below `.data`. -/
theorem usable_in_block_iff (h : Past m made) (hl : m.layout = l)
    (hallocate : m.allocate size = .ok (a, n)) {i : Nat} (hi : i < size.toNat) :
    n.inSegment .data (a + UInt32.ofNat i) = true ∧ n.Usable (a + UInt32.ofNat i) .byte ↔
      l.sections.data.low ≤ a + UInt32.ofNat i := by
  obtain ⟨hlayout, -, hstop⟩ := place_in_block h hallocate hi
  have hin := inSegment_data_iff (hlayout.trans hl) (a + UInt32.ofNat i)
  rw [segments, hl] at hstop
  constructor
  · intro hboth
    exact (hin.mp hboth.1).1
  · intro hlow
    have hdata := hin.mpr ⟨hlow, hstop⟩
    exact ⟨hdata, (usable_of_owner (by decide) (owner?_of_inSegment_data hdata)).1⟩

/-- A new memory whose heap stands below `.data` hands out the word at the heap. -/
theorem allocate_below_data (hlow : l.sections.heap.low < l.sections.data.low) :
    ∃ n, (ofLayout l).allocate 1 = .ok (l.sections.heap.low, n) := by
  have hheap : l.sections.heap.low.toNat % 4 = 0 := l.aligned .heap
  have hdata : l.sections.data.low.toNat % 4 = 0 := l.aligned .data
  have hlt := l.sections.data.low.toNat_lt
  have hend := Segments.ofLayout_base_lt l .data
  rw [UInt32.lt_iff_toNat_lt] at hlow
  refine ⟨_, allocate_eq_ok_iff.mpr ⟨by decide, ?_, rfl, rfl⟩⟩
  change (l.sections.heap.low.toNat + 1 + 3) / 4 * 4 < _ ∧
    (l.sections.heap.low.toNat + 1 + 3) / 4 * 4 ≤ ((Segments.ofLayout l).bounds .data).stop
  change l.sections.data.low.toNat < _ at hend
  omega

/-- What the heap of an accepted layout hands out can be used as part of the data segment exactly
if the heap does not start below `.data`. In any layout this holds of each byte that does not stand
below `.data`, and no block goes past the end of the data segment. -/
theorem heap_usable_above_data {identifier name : String} {sections : Sections}
    {gpOffset externSize : UInt32}
    (h : Layout.ofParts identifier name sections gpOffset externSize = .ok l) :
    (HandsOutData l ↔ sections.data.low ≤ sections.heap.low) ∧
      ∀ m made, Past m made → m.layout = l → ∀ size a n, m.allocate size = .ok (a, n) →
        ∀ i < size.toNat, (a + UInt32.ofNat i).toNat < m.segments.data.stop ∧
          (n.inSegment .data (a + UInt32.ofNat i) = true ∧ n.Usable (a + UInt32.ofNat i) .byte ↔
            sections.data.low ≤ a + UInt32.ofNat i) := by
  obtain ⟨-, -, rfl, -, -⟩ := Layout.ofParts_eq_ok_iff.mp h
  refine ⟨⟨?_, ?_⟩, ?_⟩
  · intro hall
    rw [← UInt32.not_lt]
    intro hlow
    obtain ⟨n, hallocate⟩ := allocate_below_data hlow
    obtain ⟨hdata, -⟩ := hall _ _ (.created l) rfl _ _ _ hallocate 0 (by decide)
    have hlayout := (place_in_block (.created l) hallocate (i := 0) (by decide)).1
    have habove := ((inSegment_data_iff hlayout _).mp hdata).1
    rw [show UInt32.ofNat 0 = 0 from rfl, UInt32.add_zero, ← UInt32.not_lt] at habove
    exact habove hlow
  · rintro hle m made hpast rfl size a n hallocate i hi
    refine (usable_in_block_iff hpast rfl hallocate hi).mpr ?_
    have hbase : m.layout.sections.heap.low.toNat ≤ m.heap.toNat := (cursor_of_past hpast).2
    have hplace := (place_in_block hpast hallocate hi).2.1
    rw [UInt32.le_iff_toNat_le] at hle ⊢
    omega
  · intro m made hpast hl size a n hallocate i hi
    exact ⟨(place_in_block hpast hallocate hi).2.2, usable_in_block_iff hpast hl hallocate hi⟩

/-- In the default layout, whose heap follows `.data`, all that is handed out can be used. -/
theorem heap_usable_by_default :
    let l := Layout.default
    Layout.ofParts l.identifier l.name l.sections l.gpOffset l.externSize = .ok l ∧
      HandsOutData l := by
  intro l
  have haccepted : Layout.ofParts l.identifier l.name l.sections l.gpOffset l.externSize = .ok l :=
    Layout.ofParts_eq_ok_iff.mpr ⟨rfl, rfl, rfl, rfl, rfl⟩
  exact ⟨haccepted, (heap_usable_above_data haccepted).1.mpr (by decide)⟩

/-- In the layout whose heap stands below `.data`, which is accepted, the first block is in no
segment and cannot be used. -/
theorem heap_block_outside_data :
    let l := Layout.heapBelowData
    Layout.ofParts l.identifier l.name l.sections l.gpOffset l.externSize = .ok l ∧
      ∃ n, (ofLayout l).allocate 4 = .ok (0x8000, n) ∧ n.segments.owner? 0x8000 = none ∧
        n.loadOutcome 0x8000 .byte = .error ⟨.read, .outOfRange, 0x8000⟩ ∧
        ∀ d, n.storeOutcome 0x8000 d .byte = .error ⟨.write, .outOfRange, 0x8000⟩ := by
  intro l
  obtain ⟨n, hallocate, hlayout, hself⟩ : ∃ n, (ofLayout l).allocate 4 = .ok (0x8000, n) ∧
      n.layout = l ∧ n.selfModifying = false :=
    ⟨_, allocate_eq_ok_iff.mpr ⟨by decide, ⟨by decide +kernel, by decide +kernel⟩, rfl, rfl⟩,
      rfl, rfl⟩
  have howner : (ofLayout l).segments.owner? 0x8000 = none := by decide +kernel
  have hrefused : n.refusal? 0x8000 .byte = some ⟨.outOfRange, 0x8000⟩ := by
    rw [refusal?_congr (m := ofLayout l) hlayout hself]
    decide +kernel
  refine ⟨Layout.ofParts_eq_ok_iff.mpr ⟨rfl, rfl, rfl, rfl, rfl⟩, n, hallocate, ?_, ?_, ?_⟩
  · rw [segments, hlayout]
    exact howner
  · rw [loadOutcome_eq_refusal, hrefused]
    rfl
  · intro d
    rw [storeOutcome_eq_refusal, hrefused]
    rfl

end Memory
end ArchState
