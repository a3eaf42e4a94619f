import ArchState.Proofs.Memory.Heap

/-! # When the heap is full

The cursor of the heap is an address. It reaches the end of the data segment unless that is the end
of the address space, where it stops one word earlier. A request is refused exactly if it would move
the cursor past the last place that it reaches, and the requests of a run are all granted exactly if
they fit together.
-/
namespace ArchState

/-- A layout whose heap reaches the end of the address space. -/
def Layout.heapAtTop : Layout where
  identifier := "HeapAtTop"
  name := "Heap at the top"
  sections :=
    { text := ⟨0x9000, 0x9FFF, by decide⟩
      data := ⟨0xFFFF0000, 0xFFFF7FFF, by decide⟩
      heap := ⟨0xFFFF8000, 0xFFFFFFFF, by decide⟩
      stack := ⟨0x3000, 0x3FFF, by decide⟩
      mmio := ⟨0x5000, 0x50FF, by decide⟩ }
  gpOffset := 0x1000
  externSize := 0x100
  aligned := fun s => by cases s <;> decide
  gp_le := by decide
  extern_le := by decide

theorem roundUp_add {n : Nat} (h : n % 4 = 0) (k : Nat) : roundUp (n + k) = n + roundUp k := by
  simp only [roundUp]
  omega

/-- The bytes that blocks of some sizes take in whole words, one block after another. -/
def roomFor : List Nat → Nat
  | [] => 0
  | size :: sizes => roundUp size + roomFor sizes

/-- The number of bytes that a request asks the heap for. -/
def MemoryRequest.asks : MemoryRequest → Option Nat
  | allocate size => if 0 ≤ size then some size.toNat else none
  | _ => none

namespace Memory
variable {m : Memory} {made : List MemoryRequest} {size : Int} {request : MemoryRequest}
  {run : List (ObserverId × MemoryRequest)}

/-- The last place that the cursor can reach. -/
def cursorLimit (m : Memory) : Nat := min m.segments.data.stop 0xFFFFFFFC

theorem data_stop_bounds (m : Memory) :
    m.segments.data.stop % 4 = 0 ∧ m.segments.data.stop ≤ 0x100000000 :=
  ⟨Segments.ofLayout_stop_mod m.layout .data, Segments.ofLayout_stop_le m.layout .data⟩

theorem hasRoom_iff : m.HasRoom size ↔ roundUp (m.heap.toNat + size.toNat) ≤ m.cursorLimit := by
  simp only [HasRoom, cursorLimit, roundUp]
  omega

theorem exhausted_iff (hsize : 0 ≤ size) : m.allocate size = .error (.exhausted size) ↔
    m.cursorLimit < roundUp (m.heap.toNat + size.toNat) := by
  have hnegative : ¬ size < 0 := by omega
  simp [allocate_eq_error_iff, hasRoom_iff, hsize, hnegative]

theorem granted_iff (hsize : 0 ≤ size) : (∃ n, m.allocate size = .ok (m.heap, n)) ↔
    roundUp (m.heap.toNat + size.toNat) ≤ m.cursorLimit := by
  simp [allocate_eq_ok_iff, hasRoom_iff, hsize]

/-- The cursor is never past the last place that it can reach, if the heap of the layout does not
start past the data segment. -/
theorem cursor_le_of_past (h : Past m made)
    (hbase : m.layout.heapBase.toNat ≤ m.segments.data.stop) :
    m.heap.toNat ≤ m.cursorLimit := by
  have hfresh : ∀ l : Layout, l.heapBase.toNat ≤ (Segments.ofLayout l).data.stop →
      l.heapBase.toNat ≤ min (Segments.ofLayout l).data.stop 0xFFFFFFFC := by
    intro l hl
    have hmod : l.heapBase.toNat % 4 = 0 := l.aligned .heap
    have hlt := l.heapBase.toNat_lt
    omega
  induction h with
  | created l => exact hfresh l hbase
  | @served m made id request past ih =>
    cases he : request.empties with
    | true =>
      cases request with
      | clear => exact hfresh m.layout hbase
      | setLayout l => exact hfresh l hbase
      | _ => cases he
    | false =>
      have hlayout := m.layout_serve id he
      have hlimit : (m.serve id request).state.cursorLimit = m.cursorLimit := by
        simp only [cursorLimit, segments, hlayout]
      simp only [segments, hlayout] at hbase
      rw [hlimit]
      cases hgranted : m.granted? request with
      | none =>
        rw [m.heap_serve id he hgranted]
        exact ih hbase
      | some block =>
        obtain ⟨hmod, -⟩ := cursor_of_past past
        obtain ⟨-, hnext, hstop⟩ := heap_serve_of_granted id hmod hgranted
        have hround := roundUp_mod block.size
        have hlt := (m.serve id request).state.heap.toNat_lt
        rw [cursorLimit]
        omega
  | copied _ _ hcopy _ ih =>
    obtain rfl := copyFrom?_eq_some hcopy
    exact ih hbase

theorem granted?_of_asks_none (h : request.asks = none) : m.granted? request = none := by
  cases request with
  | allocate size =>
    have hnegative : size < 0 := by
      simpa [MemoryRequest.asks] using h
    simp [granted?, allocate, hnegative, Except.toOption]
  | _ => rfl

theorem granted?_of_asks (hmod : m.heap.toNat % 4 = 0) {bytes : Nat}
    (h : request.asks = some bytes) : m.granted? request =
      if m.heap.toNat + roundUp bytes ≤ m.cursorLimit then some ⟨m.heap, bytes⟩ else none := by
  cases request with
  | allocate size =>
    simp only [MemoryRequest.asks, Option.ite_none_right_eq_some, Option.some.injEq] at h
    obtain ⟨hsize, rfl⟩ := h
    rw [← roundUp_add hmod]
    split
    · rename_i hroom
      obtain ⟨n, hok⟩ := (granted_iff hsize).mpr hroom
      simp [granted?, hok, Except.toOption]
    · rename_i hfull
      have herror := (exhausted_iff hsize).mpr (Nat.lt_of_not_le hfull)
      simp [granted?, herror, Except.toOption]
  | _ => cases h

theorem length_blocks_le (m : Memory) (run : List (ObserverId × MemoryRequest)) :
    (m.blocks run).length ≤ (run.filterMap (·.2.asks)).length := by
  induction run generalizing m with
  | nil => simp [blocks]
  | cons r run ih =>
    obtain ⟨id, request⟩ := r
    have hrest := ih (m.serve id request).state
    cases hasks : request.asks with
    | none => simpa [blocks, granted?_of_asks_none hasks, hasks] using hrest
    | some bytes =>
      cases hgranted : m.granted? request with
      | none =>
        simp only [blocks, hgranted, Option.toList_none, List.nil_append, List.filterMap_cons,
          hasks, List.length_cons]
        omega
      | some block => simpa [blocks, hgranted, hasks] using hrest

/-- The requests of a run are all granted exactly if all that they ask for fits, in whole words,
between the cursor and the last place that it can reach. -/
theorem all_granted_iff (hmod : m.heap.toNat % 4 = 0) (hle : m.heap.toNat ≤ m.cursorLimit)
    (hrun : ∀ r ∈ run, r.2.empties = false) :
    (m.blocks run).map HeapBlock.size = run.filterMap (·.2.asks) ↔
      m.heap.toNat + roomFor (run.filterMap (·.2.asks)) ≤ m.cursorLimit := by
  induction run generalizing m with
  | nil => simpa [blocks, roomFor] using hle
  | cons r run ih =>
    obtain ⟨id, request⟩ := r
    have he : request.empties = false := hrun _ List.mem_cons_self
    have hlimit : (m.serve id request).state.cursorLimit = m.cursorLimit := by
      simp only [cursorLimit, segments, m.layout_serve id he]
    have hnextMod := (heap_le_serve id he hmod).2
    have hrest := ih (m := (m.serve id request).state) hnextMod
    rw [hlimit] at hrest
    replace hrest := fun hle => hrest hle fun r hr => hrun r (List.mem_cons_of_mem _ hr)
    cases hasks : request.asks with
    | none =>
      have hgranted : m.granted? request = none := granted?_of_asks_none hasks
      rw [m.heap_serve id he hgranted] at hrest
      simpa [blocks, hgranted, hasks] using hrest hle
    | some bytes =>
      have hgranted := granted?_of_asks hmod hasks
      by_cases hroom : m.heap.toNat + roundUp bytes ≤ m.cursorLimit
      · rw [if_pos hroom] at hgranted
        obtain ⟨-, hnext, -⟩ := heap_serve_of_granted id hmod hgranted
        rw [hnext] at hrest
        simpa [blocks, roomFor, hgranted, hasks, Nat.add_assoc] using hrest hroom
      · -- the first request is refused, so that too few blocks are handed out
        rw [if_neg hroom] at hgranted
        have hshort := length_blocks_le (m.serve id request).state run
        have hleft : (m.blocks ((id, request) :: run)).map HeapBlock.size ≠
            ((id, request) :: run).filterMap (·.2.asks) := by
          intro heq
          have hlength := congrArg List.length heq
          simp [blocks, hgranted, hasks] at hlength
          omega
        refine iff_of_false hleft ?_
        simp only [List.filterMap_cons, hasks, roomFor]
        omega

/-- A request is refused exactly if the cursor, moved on by the size in whole words, would pass the
end of the data segment or stand at the end of the address space. So a request that fills the data
segment is granted unless the segment reaches the end of the address space. The requests of a run
are all granted exactly if they fit together. -/
theorem heap_refused_when_full (h : Past m made)
    (hbase : m.layout.heapBase.toNat ≤ m.segments.data.stop) (hsize : 0 ≤ size) :
    let next := roundUp (m.heap.toNat + size.toNat)
    m.heap.toNat ≤ m.segments.data.stop ∧ next = m.heap.toNat + roundUp size.toNat ∧
      (m.allocate size = .error (.exhausted size) ↔
        m.segments.data.stop < next ∨ next = 0x100000000) ∧
      (next = m.segments.data.stop →
        ((∃ n, m.allocate size = .ok (m.heap, n)) ↔ m.segments.data.stop ≠ 0x100000000)) ∧
      ∀ run : List (ObserverId × MemoryRequest), (∀ r ∈ run, r.2.empties = false) →
        ((m.blocks run).map HeapBlock.size = run.filterMap (·.2.asks) ↔
          m.heap.toNat + roomFor (run.filterMap (·.2.asks)) ≤ m.cursorLimit) := by
  intro next
  obtain ⟨hmod, -⟩ := cursor_of_past h
  obtain ⟨hstopMod, hstop⟩ := m.data_stop_bounds
  have hle := cursor_le_of_past h hbase
  have hnextMod : next % 4 = 0 := roundUp_mod _
  have hlimit : m.cursorLimit = min m.segments.data.stop 0xFFFFFFFC := rfl
  refine ⟨by omega, roundUp_add hmod _, ?_, ?_, fun run hrun => all_granted_iff hmod hle hrun⟩
  · have hexhausted : _ ↔ m.cursorLimit < next := exhausted_iff hsize
    rw [hexhausted]
    omega
  · intro hfills
    have hgranted : _ ↔ next ≤ m.cursorLimit := granted_iff hsize
    rw [hgranted]
    omega

/-- In the compact layout a request for all of the heap is granted and one for a byte more is
refused. -/
theorem whole_heap_granted :
    let m := ofLayout .compactTextAtZero
    m.layout.heapBase.toNat ≤ m.segments.data.stop ∧
      (∃ n, m.allocate 0x1000 = .ok (0x2000, n)) ∧
      m.allocate 0x1001 = .error (.exhausted 0x1001) := by
  intro m
  have hbase : m.layout.heapBase.toNat ≤ m.segments.data.stop := by decide +kernel
  have hwhole : (0 : Int) ≤ 0x1000 := by decide
  have hlarger : (0 : Int) ≤ 0x1001 := by decide
  obtain ⟨-, -, -, hfills, -⟩ := heap_refused_when_full (.created .compactTextAtZero) hbase hwhole
  obtain ⟨-, -, hmore, -⟩ := heap_refused_when_full (.created .compactTextAtZero) hbase hlarger
  exact ⟨hbase, (hfills (by decide +kernel)).mpr (by decide +kernel),
    hmore.mpr (by decide +kernel)⟩

/-- Where the heap reaches the end of the address space, a request for all of it is refused,
although it ends where the data segment ends. -/
theorem whole_heap_refused_at_top :
    let l := Layout.heapAtTop
    let m := ofLayout l
    Layout.ofParts l.identifier l.name l.sections l.gpOffset l.externSize = .ok l ∧
      l.heapBase.toNat ≤ m.segments.data.stop ∧
      roundUp (m.heap.toNat + 0x8000) = m.segments.data.stop ∧
      m.allocate 0x8000 = .error (.exhausted 0x8000) := by
  intro l m
  refine ⟨Layout.ofParts_eq_ok_iff.mpr ⟨rfl, rfl, rfl, rfl, rfl⟩, by decide +kernel,
    by decide +kernel, ?_⟩
  exact (exhausted_iff (by decide)).mpr (by decide +kernel)

end Memory
end ArchState
