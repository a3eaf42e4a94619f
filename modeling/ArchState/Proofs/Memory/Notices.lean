import Mathlib.Data.List.Nodup
import ArchState.Proofs.Memory.Request

/-! # Who is told what

What was registered and removed so far determines who is told of an access. A registration lives
until its handle or all handles are removed. Since handles are never used twice, a handle that
lives stands for one registration, and whoever watches an address is told once of each access
to it.
-/
namespace ArchState

open Memory (StoreRequest)

namespace Region

/-- Regions that are watched: a range must not be inverted nor cross the middle of the address
space. -/
def accepted : Region → Bool
  | everywhere | place _ => true
  | range first last => first ≤ last && (last < Memory.signBoundary || Memory.signBoundary ≤ first)

/-- The ranges that are registered for a region. -/
def registrations (id : ObserverId) : Region → List Registration
  | everywhere => [⟨id, 0, 0x7FFFFFFC⟩, ⟨id, 0x80000000, 0xFFFFFFFC⟩]
  | place a => [⟨id, a, a⟩]
  | range first last => [⟨id, first, last⟩]

/-- The registrations of some handles with their regions, in their order. -/
def allRegistrations (ws : List (ObserverId × Region)) : List Registration :=
  ws.flatMap fun w => w.2.registrations w.1

/-- Whether an access at `a` concerns a region. The last word of a range belongs to it. -/
def covers (a : UInt32) : Region → Bool
  | everywhere => true
  | place b => b.toNat ≤ a.toNat && a.toNat ≤ b.toNat + 3
  | range first last => first.toNat ≤ a.toNat && a.toNat ≤ last.toNat + 3

end Region

/-- The notice of a write: the lowest bytes of the value, as many as are written. -/
def Memory.StoreRequest.notice (w : StoreRequest) : MemoryNotice :=
  ⟨.write, w.address, w.length, UInt32.ofNat (w.value.toNat % 256 ^ w.length)⟩

namespace MemoryRequest

/-- The notices of what a request reads that was answered. -/
def reads : MemoryRequest → Answer → List MemoryNotice
  | load .double a, .double d =>
    [⟨.read, a, 4, DoubleWord.lowWord d⟩, ⟨.read, a + 4, 4, DoubleWord.highWord d⟩]
  | load kind a, .word w => [⟨.read, a, kind.size, w⟩]
  | readStatement a, .statement st => [⟨.read, a, 4, (st.map Statement.binary).getD 0⟩]
  | _, _ => []

/-- All notices of a request, the one that is sent first coming first. A request that is refused
has none. -/
def tells (request : MemoryRequest) : Option Answer → List MemoryNotice
  | none => []
  | some answer => request.reads answer ++ request.writes.map StoreRequest.notice

/-- Whether a request registers or removes observers. -/
def watches : MemoryRequest → Bool
  | observe _ | unobserve _ | unobserveAll => true
  | _ => false

end MemoryRequest

/-- The notices to all registrations that an access concerns, in the order of the registrations. -/
def delivered (registrations : List Registration) (n : MemoryNotice) : List Signal :=
  (registrations.filter fun r =>
    r.first.toNat ≤ n.address.toNat && n.address.toNat ≤ r.last.toNat + 3).map
      fun r => .memory r.id n

def Signal.goesTo (id : ObserverId) : Signal → Bool
  | memory observer _ => observer == id
  | _ => false

namespace Memory
variable {m : Memory} {a : UInt32} {length : Nat}

theorem notify_eq_delivered (m : Memory) (access : Access) (a : UInt32) (length : Nat)
    (value : UInt32) :
    m.notify access a length value = delivered m.registrations ⟨access, a, length, value⟩ := by
  have hwatches : ∀ r : Registration, r.watches a =
      (r.first.toNat ≤ a.toNat && a.toNat ≤ r.last.toNat + 3) := by
    intro r
    rw [Registration.watches, Bool.eq_iff_iff]
    simp only [Bool.and_eq_true, decide_eq_true_eq, UInt32.le_iff_toNat_le]
    omega
  simp only [notify, delivered, hwatches]

theorem writeNotices_eq_delivered (m : Memory) (w : StoreRequest) :
    m.writeNotices w = delivered m.registrations w.notice := by
  have hlow : Word.low w.value w.length = UInt32.ofNat (w.value.toNat % 256 ^ w.length) := by
    rw [← Word.low_toNat, UInt32.ofNat_toNat]
  rw [writeNotices, notify_eq_delivered, hlow]
  rfl

theorem notices_flatMap_delivered (registrations : List Registration) (ns : List MemoryNotice) :
    Signal.notices (ns.flatMap (delivered registrations)) =
      ns.flatMap (delivered registrations) := by
  rw [Signal.notices, List.filter_eq_self]
  intro s hs
  obtain ⟨n, -, hn⟩ := List.mem_flatMap.mp hs
  obtain ⟨r, -, rfl⟩ := List.mem_map.mp hn
  rfl

theorem signals_of_word (kind : AccessKind) (hkind : kind ≠ .double)
    {r : Reading (Except AddressFault UInt32)}
    (h : (∃ fault, r = ⟨.error fault, []⟩) ∨ ∃ v, r = ⟨.ok v, m.notify .read a kind.size v⟩) :
    r.signals = (MemoryRequest.tells (.load kind a) (r.answer.map .word).toOption).flatMap
      (delivered m.registrations) := by
  rcases h with ⟨fault, rfl⟩ | ⟨v, rfl⟩
  · rfl
  · cases kind with
    | double => exact absurd rfl hkind
    | _ =>
      simp [MemoryRequest.tells, MemoryRequest.reads, MemoryRequest.writes, Except.map,
        Except.toOption, notify_eq_delivered]

/-- What a load tells is the notice of the word that it answers, or those of both words. One that
fails tells nothing. -/
theorem signals_loadAs (m : Memory) (kind : AccessKind) (a : UInt32) :
    (m.loadAs a kind).signals =
      (MemoryRequest.tells (.load kind a) (m.loadAs a kind).answer.toOption).flatMap
        (delivered m.registrations) := by
  cases kind with
  | bytes length => exact signals_of_word (.bytes length) nofun (m.get_cases a length)
  | byte => exact signals_of_word .byte nofun (m.getAligned_cases a 1)
  | half => exact signals_of_word .half nofun (m.getAligned_cases a 2)
  | word => exact signals_of_word .word nofun (m.getAligned_cases a 4)
  | double =>
    rcases m.getDouble_cases a with ⟨fault, h⟩ | ⟨low, high, h⟩
    · rw [loadAs, h]
      rfl
    · rw [loadAs, h]
      simp [MemoryRequest.tells, MemoryRequest.reads, MemoryRequest.writes, Reading.map, Except.map,
        Except.toOption, notify_eq_delivered]

theorem notices_stores (m : Memory) (id : ObserverId) {request : MemoryRequest}
    (h : request.stores = true) :
    Signal.notices (m.serve id request).signals =
      (request.tells (m.serve id request).answer).flatMap (delivered m.registrations) := by
  rcases m.decided_serve id h with hrefused | hmade
  · rw [hrefused]
    rfl
  · obtain ⟨answer, hanswer⟩ := Option.isSome_iff_exists.mp hmade.answered
    have hreads : request.reads answer = [] := by
      cases request with
      | store kind a d => rfl
      | storeRaw a v => rfl
      | restore record => rfl
      | _ => cases h
    have hwrites : m.writeNotices = fun w => delivered m.registrations w.notice :=
      funext m.writeNotices_eq_delivered
    rw [hmade.notices, hanswer, MemoryRequest.tells, hreads, List.nil_append, List.flatMap_map,
      hwrites]

theorem notices_load (m : Memory) (id : ObserverId) (kind : AccessKind) (a : UInt32) :
    Signal.notices (m.serve id (.load kind a)).signals =
      (MemoryRequest.tells (.load kind a) (m.serve id (.load kind a)).answer).flatMap
        (delivered m.registrations) := by
  change Signal.notices (m.loadAs a kind).signals = _
  rw [signals_loadAs, notices_flatMap_delivered]
  rfl

theorem notices_readStatement (m : Memory) (id : ObserverId) (a : UInt32) :
    Signal.notices (m.serve id (.readStatement a)).signals =
      (MemoryRequest.tells (.readStatement a) (m.serve id (.readStatement a)).answer).flatMap
        (delivered m.registrations) := by
  rw [serve, getStatement]
  cases m.fetchStatement a with
  | error fault => rfl
  | ok st =>
    have hsignals := m.notify_eq_delivered .read a 4 ((st.map Statement.binary).getD 0)
    have hkept := m.notices_notify .read a 4 ((st.map Statement.binary).getD 0)
    rw [hsignals] at hkept
    change Signal.notices (m.notify .read a 4 _) = _
    rw [hsignals, hkept]
    exact (List.append_nil _).symm

/-- The notices that a request sends are those of what it reads and writes, each of them sent to
all registrations that it concerns. -/
theorem notices_serve (m : Memory) (id : ObserverId) (request : MemoryRequest) :
    Signal.notices (m.serve id request).signals =
      (request.tells (m.serve id request).answer).flatMap (delivered m.registrations) := by
  cases request with
  | store kind a d => exact m.notices_stores id rfl
  | storeRaw a v => exact m.notices_stores id rfl
  | restore record => exact m.notices_stores id rfl
  | load kind a => exact m.notices_load id kind a
  | readStatement a => exact m.notices_readStatement id a
  | install a st =>
    rw [serve, setStatement]
    cases m.checkText .write a <;> rfl
  | allocate size =>
    rw [serve]
    cases m.allocate size <;> rfl
  | observe region =>
    rw [serve]
    cases m.register id region <;> rfl
  | inspect query =>
    rw [serve]
    cases m.inspect query <;> rfl
  | _ => rfl

theorem registrations_serve (m : Memory) (id : ObserverId) {request : MemoryRequest}
    (h : request.watches = false) :
    (m.serve id request).state.registrations = m.registrations := by
  have hstores : request.stores = true →
      (m.serve id request).state.registrations = m.registrations := by
    intro hs
    obtain ⟨image, fits, hstate⟩ := m.state_stores id hs
    rw [hstate]
    rfl
  cases request with
  | observe region => cases h
  | unobserve old => cases h
  | unobserveAll => cases h
  | store kind a d => exact hstores rfl
  | storeRaw a v => exact hstores rfl
  | restore record => exact hstores rfl
  | install a st =>
    obtain ⟨image, fits, hstate⟩ := m.state_install id a st
    rw [hstate]
    rfl
  | allocate size =>
    obtain ⟨heap, hstate⟩ := m.state_allocate id size
    rw [hstate]
  | _ => rfl

theorem register_of_accepted (m : Memory) (id : ObserverId) {region : Region}
    (h : region.accepted = true) :
    m.register id region =
      .ok { m with registrations := m.registrations ++ region.registrations id } := by
  have hrange : ∀ first last : UInt32, (Region.range first last).accepted = true →
      m.observeRange id first last =
        .ok { m with registrations := m.registrations ++ [⟨id, first, last⟩] } := by
    intro first last haccepted
    simp only [Region.accepted, Bool.and_eq_true, Bool.or_eq_true, decide_eq_true_eq,
      UInt32.le_iff_toNat_le, UInt32.lt_iff_toNat_lt] at haccepted
    rw [observeRange, if_neg, if_neg]
    · simp only [UInt32.le_iff_toNat_le, UInt32.lt_iff_toNat_lt]
      omega
    · simp only [UInt32.lt_iff_toNat_lt]
      omega
  cases region with
  | everywhere => rfl
  | place a =>
    refine hrange a a ?_
    simp only [Region.accepted, Bool.and_eq_true, Bool.or_eq_true, decide_eq_true_eq,
      UInt32.le_iff_toNat_le, UInt32.lt_iff_toNat_lt]
    omega
  | range first last => exact hrange first last h

theorem register_of_not_accepted (m : Memory) (id : ObserverId) {region : Region}
    (h : region.accepted = false) : ∃ fault, m.register id region = .error fault := by
  cases region with
  | everywhere => cases h
  | place a => cases h
  | range first last =>
    simp only [Region.accepted, Bool.and_eq_false_iff, Bool.or_eq_false_iff,
      decide_eq_false_iff_not, UInt32.le_iff_toNat_le, UInt32.lt_iff_toNat_lt] at h
    rw [register, observeRange]
    by_cases hinverted : last < first
    · rw [if_pos hinverted]
      exact ⟨_, rfl⟩
    · rw [if_neg hinverted, if_pos]
      · exact ⟨_, rfl⟩
      · simp only [UInt32.le_iff_toNat_le, UInt32.lt_iff_toNat_lt] at hinverted ⊢
        omega

end Memory

/-- What changes who observes a memory. -/
inductive WatchEvent where
  | registered (id : ObserverId) (region : Region)
  | removed (id : ObserverId)
  | removedAll
  deriving DecidableEq, Repr

namespace WatchEvent

def removes (id : ObserverId) : WatchEvent → Bool
  | registered _ _ => false
  | removed old => old == id
  | removedAll => true

/-- The handles that live after some events, with their regions, in the order in which they were
registered: those that no later event removes. -/
def living : List WatchEvent → List (ObserverId × Region)
  | [] => []
  | registered id region :: later =>
    if later.any (removes id) then living later else (id, region) :: living later
  | _ :: later => living later

/-- The ranges that are watched after some events. -/
def live (events : List WatchEvent) : List Registration :=
  Region.allRegistrations (living events)

variable {events : List WatchEvent} {id : ObserverId} {region : Region}

theorem living_concat (events : List WatchEvent) (e : WatchEvent) :
    living (events ++ [e]) =
      (living events).filter (fun w => !e.removes w.1) ++ living [e] := by
  induction events with
  | nil => rfl
  | cons first later ih =>
    cases first with
    | registered id region =>
      rw [List.cons_append, living, living, List.any_append, ih]
      cases hlater : later.any (removes id) with
      | true => simp
      | false => cases he : e.removes id <;> simp [he]
    | removed id => exact ih
    | removedAll => exact ih

@[simp] theorem living_registered (events : List WatchEvent) (id : ObserverId) (region : Region) :
    living (events ++ [registered id region]) = living events ++ [(id, region)] := by
  rw [living_concat]
  simp [removes, living]

@[simp] theorem living_removed (events : List WatchEvent) (id : ObserverId) :
    living (events ++ [removed id]) = (living events).filter (·.1 != id) := by
  rw [living_concat, show living [removed id] = [] from rfl, List.append_nil]
  apply List.filter_congr
  intro w _
  rw [removes, bne, BEq.comm]

@[simp] theorem living_removedAll (events : List WatchEvent) :
    living (events ++ [removedAll]) = [] := by
  rw [living_concat]
  simp [removes, living]

end WatchEvent

namespace Region
variable {ws : List (ObserverId × Region)} {id : ObserverId} {region : Region}

theorem id_of_mem_registrations {r : Registration} (h : r ∈ region.registrations id) :
    r.id = id := by
  cases region with
  | everywhere =>
    simp only [registrations, List.mem_cons, List.not_mem_nil, or_false] at h
    rcases h with rfl | rfl <;> rfl
  | place a =>
    obtain rfl := List.mem_singleton.mp h
    rfl
  | range first last =>
    obtain rfl := List.mem_singleton.mp h
    rfl

/-- The registrations under some of the handles are those of these handles. -/
theorem filter_allRegistrations (p : ObserverId → Bool) (ws : List (ObserverId × Region)) :
    (allRegistrations ws).filter (fun r => p r.id) =
      allRegistrations (ws.filter fun w => p w.1) := by
  induction ws with
  | nil => rfl
  | cons w ws ih =>
    have hcons : ∀ ws', allRegistrations (w :: ws') =
        w.2.registrations w.1 ++ allRegistrations ws' := fun _ => List.flatMap_cons
    cases hp : p w.1 with
    | true =>
      have hall : (w.2.registrations w.1).filter (fun r => p r.id) = w.2.registrations w.1 := by
        rw [List.filter_eq_self]
        intro r hr
        rw [id_of_mem_registrations hr, hp]
      rw [List.filter_cons, if_pos hp, hcons, hcons, List.filter_append, hall, ih]
    | false =>
      have hnone : (w.2.registrations w.1).filter (fun r => p r.id) = [] := by
        rw [List.filter_eq_nil_iff]
        intro r hr
        rw [id_of_mem_registrations hr, hp]
        exact Bool.false_ne_true
      rw [List.filter_cons, hp, if_neg Bool.false_ne_true, hcons, List.filter_append, hnone, ih,
        List.nil_append]

theorem mem_allRegistrations_iff {id : ObserverId} (ws : List (ObserverId × Region)) :
    id ∈ (allRegistrations ws).map Registration.id ↔ id ∈ ws.map Prod.fst := by
  constructor
  · intro h
    obtain ⟨r, hr, rfl⟩ := List.mem_map.mp h
    obtain ⟨w, hw, hrw⟩ := List.mem_flatMap.mp hr
    exact List.mem_map.mpr ⟨w, hw, (id_of_mem_registrations hrw).symm⟩
  · intro h
    obtain ⟨w, hw, rfl⟩ := List.mem_map.mp h
    obtain ⟨r, hr⟩ : ∃ r, r ∈ w.2.registrations w.1 := by
      cases w.2 <;> exact ⟨_, List.mem_cons_self⟩
    exact List.mem_map.mpr ⟨r, List.mem_flatMap.mpr ⟨w, hw, hr⟩, id_of_mem_registrations hr⟩

theorem filter_eq_singleton (hnodup : (ws.map Prod.fst).Nodup) (h : (id, region) ∈ ws) :
    ws.filter (fun w => w.1 == id) = [(id, region)] := by
  induction ws with
  | nil => cases h
  | cons w ws ih =>
    rw [List.map_cons, List.nodup_cons] at hnodup
    rcases List.mem_cons.mp h with rfl | hmem
    · have hnone : ws.filter (fun w => w.1 == id) = [] := by
        rw [List.filter_eq_nil_iff]
        intro w hw heq
        exact hnodup.1 (List.mem_map.mpr ⟨w, hw, eq_of_beq heq⟩)
      rw [List.filter_cons, if_pos (beq_self_eq_true id), hnone]
    · have hne : ¬ (w.1 == id) = true := by
        intro heq
        refine hnodup.1 (List.mem_map.mpr ⟨_, hmem, ?_⟩)
        exact (eq_of_beq heq).symm
      rw [List.filter_cons, if_neg hne, ih hnodup.2 hmem]

/-- Distinct handles are counted once each, whether they stand for one range or for two. -/
theorem eraseDups_allRegistrations (hnodup : (ws.map Prod.fst).Nodup) :
    ((allRegistrations ws).map Registration.id).eraseDups = ws.map Prod.fst := by
  induction ws with
  | nil => rfl
  | cons w ws ih =>
    obtain ⟨id, region⟩ := w
    rw [List.map_cons, List.nodup_cons] at hnodup
    have hlater : ((allRegistrations ws).map Registration.id).filter (fun i => !i == id) =
        (allRegistrations ws).map Registration.id := by
      rw [List.filter_eq_self]
      intro i hi
      obtain ⟨r, hr, rfl⟩ := List.mem_map.mp hi
      obtain ⟨w, hw, hrw⟩ := List.mem_flatMap.mp hr
      have hne : r.id ≠ id := by
        rw [id_of_mem_registrations hrw]
        intro heq
        exact hnodup.1 (List.mem_map.mpr ⟨w, hw, heq⟩)
      simp [hne]
    have hids : (allRegistrations ((id, region) :: ws)).map Registration.id =
        (region.registrations id).map Registration.id ++
          (allRegistrations ws).map Registration.id := by
      rw [allRegistrations, List.flatMap_cons, List.map_append]
      rfl
    rw [hids, List.map_cons, ← ih hnodup.2]
    cases region <;> simp [registrations, List.eraseDups_cons, hlater]

theorem delivered_singleton (r : Registration) (n : MemoryNotice) :
    delivered [r] n =
      if r.first.toNat ≤ n.address.toNat ∧ n.address.toNat ≤ r.last.toNat + 3
      then [.memory r.id n] else [] := by
  rw [delivered, List.filter_cons]
  by_cases h : r.first.toNat ≤ n.address.toNat ∧ n.address.toNat ≤ r.last.toNat + 3
  · rw [if_pos h, if_pos (by simpa using h)]
    rfl
  · rw [if_neg h, if_neg (by simpa using h)]
    rfl

/-- A handle is told at most once, as the two halves of the address space do not overlap. -/
theorem delivered_registrations (id : ObserverId) (region : Region) (n : MemoryNotice) :
    delivered (region.registrations id) n =
      if region.covers n.address then [.memory id n] else [] := by
  cases region with
  | place a => simp only [registrations, delivered_singleton, covers, Bool.and_eq_true,
      decide_eq_true_eq]
  | range first last => simp only [registrations, delivered_singleton, covers, Bool.and_eq_true,
      decide_eq_true_eq]
  | everywhere =>
    have hlt := n.address.toNat_lt
    have hsplit : delivered (everywhere.registrations id) n =
        delivered [⟨id, 0, 0x7FFFFFFC⟩] n ++ delivered [⟨id, 0x80000000, 0xFFFFFFFC⟩] n := by
      rw [delivered, delivered, delivered, ← List.map_append, ← List.filter_append]
      rfl
    have hlow : (0 : UInt32).toNat = 0 ∧ (0x7FFFFFFC : UInt32).toNat = 0x7FFFFFFC := ⟨rfl, rfl⟩
    have hhigh : (0x80000000 : UInt32).toNat = 0x80000000 ∧
        (0xFFFFFFFC : UInt32).toNat = 0xFFFFFFFC := ⟨rfl, rfl⟩
    rw [hsplit, delivered_singleton, delivered_singleton, hlow.1, hlow.2, hhigh.1, hhigh.2, covers,
      if_pos rfl]
    by_cases hhalf : n.address.toNat < 0x80000000
    · rw [if_pos (by omega), if_neg (by omega)]
      rfl
    · rw [if_neg (by omega), if_pos (by omega)]
      rfl

end Region

/-- What a request changes about the observers by how it is answered. -/
def MemoryRequest.changes : MemoryRequest → Option Answer → List WatchEvent
  | observe region, some (.handle id) => [.registered id region]
  | unobserve id, some _ => [.removed id]
  | unobserveAll, some _ => [.removedAll]
  | _, _ => []

theorem filter_goesTo_delivered (registrations : List Registration) (n : MemoryNotice)
    (id : ObserverId) :
    (delivered registrations n).filter (Signal.goesTo id) =
      delivered (registrations.filter fun r => r.id == id) n := by
  rw [delivered, delivered, List.filter_map, List.filter_filter, List.filter_filter]
  congr 1
  apply List.filter_congr
  intro r _
  exact Bool.and_comm _ _

/-- A memory together with the supply of handles that it shares with everything else that can be
observed. -/
structure Session where
  memory : Memory
  supply : ObserverSupply

namespace Session

/-- A request takes a handle from the supply if it registers an observer. -/
def serve (s : Session) (request : MemoryRequest) : Step Session (Option Answer) :=
  let (id, supply) := s.supply.take
  let t := s.memory.serve id request
  ⟨t.answer, ⟨t.state, if t.answer = some (.handle id) then supply else s.supply⟩, t.signals⟩

/-- A session from a new memory on, with what changed about its observers. A handle may be taken
for something else, and the memory may become a copy of another one. -/
inductive Watched : Session → List WatchEvent → Prop where
  | start (l : Layout) (supply : ObserverSupply) : Watched ⟨.ofLayout l, supply⟩ []
  | asked {s : Session} {events : List WatchEvent} (request : MemoryRequest) :
      Watched s events → Watched (s.serve request).state
        (events ++ request.changes (s.serve request).answer)
  | elsewhere {s : Session} {events : List WatchEvent} :
      Watched s events → Watched { s with supply := s.supply.take.2 } events
  | copied {s : Session} {events : List WatchEvent} {source c : Memory} :
      Watched s events → s.memory.copyFrom? source = some c → Watched { s with memory := c } events

variable {s : Session} {events : List WatchEvent}

/-- The memory of a session has the registrations that live, and their handles are distinct and
were all taken from the supply. -/
structure Tracks (s : Session) (events : List WatchEvent) : Prop where
  registrations : s.memory.registrations = WatchEvent.live events
  nodup : ((WatchEvent.living events).map Prod.fst).Nodup
  taken : ∀ w ∈ WatchEvent.living events, w.1.number < s.supply.unused

theorem answer_serve (s : Session) (request : MemoryRequest) :
    (s.serve request).answer = (s.memory.serve s.supply.take.1 request).answer := rfl

theorem serve_observe {region : Region} (h : region.accepted = true) (s : Session) :
    s.serve (.observe region) = ⟨some (.handle s.supply.take.1),
      { memory := { s.memory with
          registrations := s.memory.registrations ++ region.registrations s.supply.take.1 }
        supply := s.supply.take.2 }, []⟩ := by
  have hregister := s.memory.register_of_accepted s.supply.take.1 h
  simp only [serve, Memory.serve, hregister]
  exact congrArg (fun supply => Step.mk _ (Session.mk _ supply) _) (if_pos rfl)

theorem serve_observe_rejected {region : Region} (h : region.accepted = false) (s : Session) :
    s.serve (.observe region) = .quiet none s := by
  obtain ⟨fault, hfault⟩ := s.memory.register_of_not_accepted s.supply.take.1 h
  simp only [serve, Memory.serve, hfault]
  rfl

theorem unused_le_serve (s : Session) (request : MemoryRequest) :
    s.supply.unused ≤ (s.serve request).state.supply.unused := by
  simp only [serve]
  split
  · exact Nat.le_succ _
  · exact Nat.le_refl _

/-- The next handle of the supply does not live, as those that live were taken before it. -/
theorem Tracks.fresh (h : Tracks s events) :
    s.supply.take.1 ∉ (WatchEvent.living events).map Prod.fst := by
  intro hmem
  obtain ⟨w, hw, hnext⟩ := List.mem_map.mp hmem
  have hlt := h.taken w hw
  rw [hnext] at hlt
  exact Nat.lt_irrefl _ hlt

theorem Tracks.observed (h : Tracks s events) (region : Region) :
    Tracks (s.serve (.observe region)).state
      (events ++ MemoryRequest.changes (.observe region) (s.serve (.observe region)).answer) := by
  cases haccepted : region.accepted with
  | false =>
    rw [serve_observe_rejected haccepted s]
    change Tracks s (events ++ [])
    rw [List.append_nil]
    exact h
  | true =>
    rw [serve_observe haccepted s]
    change Tracks _ (events ++ [.registered s.supply.take.1 region])
    refine ⟨?_, ?_, ?_⟩
    · rw [WatchEvent.live, WatchEvent.living_registered, Region.allRegistrations,
        List.flatMap_append, List.flatMap_singleton]
      exact congrArg (· ++ region.registrations s.supply.take.1) h.registrations
    · have hfresh := List.Nodup.concat h.fresh h.nodup
      rw [List.concat_eq_append] at hfresh
      rw [WatchEvent.living_registered, List.map_append]
      exact hfresh
    · intro w hw
      rw [WatchEvent.living_registered, List.mem_append, List.mem_singleton] at hw
      rcases hw with hw | rfl
      · exact Nat.lt_succ_of_lt (h.taken w hw)
      · exact Nat.lt_succ_self _

theorem Tracks.removed (h : Tracks s events) (id : ObserverId) :
    Tracks (s.serve (.unobserve id)).state (events ++ [.removed id]) where
  registrations := by
    rw [WatchEvent.live, WatchEvent.living_removed,
      ← Region.filter_allRegistrations (fun i => i != id)]
    exact congrArg (List.filter fun r => r.id != id) h.registrations
  nodup := by
    rw [WatchEvent.living_removed]
    exact h.nodup.sublist (List.filter_sublist.map Prod.fst)
  taken := by
    intro w hw
    rw [WatchEvent.living_removed] at hw
    exact Nat.lt_of_lt_of_le (h.taken w (List.mem_filter.mp hw).1) (s.unused_le_serve _)

theorem tracks_removedAll (s : Session) (events : List WatchEvent) :
    Tracks (s.serve .unobserveAll).state (events ++ [.removedAll]) where
  registrations := by
    rw [WatchEvent.live, WatchEvent.living_removedAll]
    rfl
  nodup := by
    rw [WatchEvent.living_removedAll]
    exact List.nodup_nil
  taken := by
    rw [WatchEvent.living_removedAll]
    exact List.forall_mem_nil _

theorem Tracks.kept (h : Tracks s events) {request : MemoryRequest} (hw : request.watches = false) :
    Tracks (s.serve request).state events where
  registrations := (s.memory.registrations_serve _ hw).trans h.registrations
  nodup := h.nodup
  taken w hw := Nat.lt_of_lt_of_le (h.taken w hw) (s.unused_le_serve request)

theorem Tracks.asked (h : Tracks s events) (request : MemoryRequest) :
    Tracks (s.serve request).state (events ++ request.changes (s.serve request).answer) := by
  cases hw : request.watches with
  | true =>
    cases request with
    | observe region => exact h.observed region
    | unobserve id => exact h.removed id
    | unobserveAll => exact s.tracks_removedAll events
    | _ => cases hw
  | false =>
    have hchanges : request.changes (s.serve request).answer = [] := by
      cases request with
      | observe region => cases hw
      | unobserve id => cases hw
      | unobserveAll => cases hw
      | _ => rfl
    rw [hchanges, List.append_nil]
    exact h.kept hw

/-- What happened to the observers of a memory determines its registrations. -/
theorem Watched.tracks (h : Watched s events) : Tracks s events := by
  induction h with
  | start l supply => exact ⟨rfl, List.nodup_nil, List.forall_mem_nil _⟩
  | asked request _ ih => exact ih.asked request
  | elsewhere _ ih =>
    refine ⟨ih.registrations, ih.nodup, ?_⟩
    intro w hw
    exact Nat.lt_succ_of_lt (ih.taken w hw)
  | copied _ hcopy ih =>
    obtain rfl := Memory.copyFrom?_eq_some hcopy
    exact ⟨ih.registrations, ih.nodup, ih.taken⟩

theorem answer_unobserve (h : Tracks s events) (id : ObserverId) :
    (s.serve (.unobserve id)).answer =
      some (.found (decide (id ∈ (WatchEvent.living events).map Prod.fst))) := by
  have hany : s.memory.registrations.any (·.id == id) =
      decide (id ∈ (WatchEvent.living events).map Prod.fst) := by
    rw [Bool.eq_iff_iff, decide_eq_true_eq, ← Region.mem_allRegistrations_iff,
      ← WatchEvent.live, ← h.registrations, List.any_eq_true, List.mem_map]
    constructor
    · rintro ⟨r, hr, hid⟩
      exact ⟨r, hr, eq_of_beq hid⟩
    · rintro ⟨r, hr, rfl⟩
      exact ⟨r, hr, beq_self_eq_true r.id⟩
  exact congrArg (fun found => some (Answer.found found)) hany

/-- What a handle is told comes from the registrations under this handle. -/
theorem told_by_own (events : List WatchEvent) (id : ObserverId) (n : MemoryNotice) :
    (delivered (WatchEvent.live events) n).filter (Signal.goesTo id) =
      delivered (Region.allRegistrations
        ((WatchEvent.living events).filter fun w => w.1 == id)) n := by
  rw [filter_goesTo_delivered, WatchEvent.live, Region.filter_allRegistrations (fun i => i == id)]

theorem Tracks.told (h : Tracks s events) {id : ObserverId} {region : Region}
    (hliving : (id, region) ∈ WatchEvent.living events) (n : MemoryNotice) :
    (delivered (WatchEvent.live events) n).filter (Signal.goesTo id) =
      if region.covers n.address then [.memory id n] else [] := by
  rw [told_by_own, Region.filter_eq_singleton h.nodup hliving, Region.allRegistrations,
    List.flatMap_singleton]
  exact Region.delivered_registrations id region n

theorem untold_of_not_living {id : ObserverId}
    (hdead : id ∉ (WatchEvent.living events).map Prod.fst) (n : MemoryNotice) :
    (delivered (WatchEvent.live events) n).filter (Signal.goesTo id) = [] := by
  have hnone : (WatchEvent.living events).filter (fun w => w.1 == id) = [] := by
    rw [List.filter_eq_nil_iff]
    intro w hw heq
    exact hdead (List.mem_map.mpr ⟨w, hw, eq_of_beq heq⟩)
  rw [told_by_own, hnone]
  rfl

theorem Tracks.observers (h : Tracks s events) :
    s.memory.observers = (WatchEvent.living events).map Prod.fst := by
  rw [Memory.observers, h.registrations]
  exact Region.eraseDups_allRegistrations h.nodup

/-- Every request sends its notices to the registrations that live and concern the address, in the
order of the registrations. A handle that lives is told once of each notice in its region, and
wherever the address lies if it observes everything. A handle that does not live is told nothing.
Removing a handle answers whether it lived and ends its registrations and no others. The handles
that live are counted, and a region that is rejected leaves everything as it is. -/
theorem notices_follow_registrations (h : Watched s events) :
    (∀ request, Signal.notices (s.serve request).signals =
      (request.tells (s.serve request).answer).flatMap (delivered (WatchEvent.live events))) ∧
    (∀ id region, (id, region) ∈ WatchEvent.living events → ∀ n,
      (delivered (WatchEvent.live events) n).filter (Signal.goesTo id) =
        if region.covers n.address then [.memory id n] else []) ∧
    (∀ id, id ∉ (WatchEvent.living events).map Prod.fst → ∀ n,
      (delivered (WatchEvent.live events) n).filter (Signal.goesTo id) = []) ∧
    (∀ id, (s.serve (.unobserve id)).answer =
        some (.found (decide (id ∈ (WatchEvent.living events).map Prod.fst))) ∧
      (s.serve (.unobserve id)).state = { s with memory := { s.memory with
        registrations := (WatchEvent.live events).filter fun r => r.id != id } }) ∧
    s.memory.observers = (WatchEvent.living events).map Prod.fst ∧
    ((WatchEvent.living events).map Prod.fst).Nodup ∧
    ∀ region : Region, region.accepted = false → s.serve (.observe region) = .quiet none s := by
  have htracks := h.tracks
  refine ⟨?_, fun _ _ hliving n => htracks.told hliving n,
    fun _ hdead n => untold_of_not_living hdead n, ?_, htracks.observers, htracks.nodup,
    fun _ hrejected => serve_observe_rejected hrejected s⟩
  · intro request
    rw [← htracks.registrations]
    exact s.memory.notices_serve s.supply.take.1 request
  · intro id
    refine ⟨answer_unobserve htracks id, ?_⟩
    rw [← htracks.registrations]
    rfl

/-- The last byte of the last word of a range is told to its observer and to one of everything,
but not to one of the next word. A range over the middle of the address space is rejected. -/
theorem byte_at_end_of_range_told :
    let start : Session := ⟨.ofLayout .compactTextAtZero, {}⟩
    let first := (start.serve (.observe .everywhere)).state
    let second := (first.serve (.observe (.range 0x1000 0x1004))).state
    let s := (second.serve (.observe (.place 0x1008))).state
    Signal.notices (s.serve (.store (.bytes 1) 0x1007 0x1FF)).signals =
        [.memory ⟨1⟩ ⟨.write, 0x1007, 1, 0xFF⟩, .memory ⟨2⟩ ⟨.write, 0x1007, 1, 0xFF⟩] ∧
      s.serve (.observe (.range 0x7FFFFFFC 0x80000000)) = .quiet none s ∧
      s.memory.observers = [⟨1⟩, ⟨2⟩, ⟨3⟩] := by
  intro start first second s
  have hwatched : Watched s [.registered ⟨1⟩ .everywhere, .registered ⟨2⟩ (.range 0x1000 0x1004),
      .registered ⟨3⟩ (.place 0x1008)] :=
    Watched.asked (s := second) (.observe (.place 0x1008))
      (Watched.asked (s := first) (.observe (.range 0x1000 0x1004))
        (Watched.asked (s := start) (.observe .everywhere) (.start _ _)))
  obtain ⟨hnotices, -, -, -, hcount, -, hrejected⟩ := notices_follow_registrations hwatched
  have howner : s.memory.segments.owner? 0x1007 = some .data := by
    rw [Memory.segments, show s.memory.layout = .compactTextAtZero from rfl]
    decide +kernel
  have hlocate : s.memory.locate .write 0x1007 1 = .ok .data :=
    Memory.locate_eq_ok_iff.mpr ⟨.inl rfl, by decide, howner, howner, fun h => absurd h (by decide)⟩
  have hstored := Memory.answer_storeBytes hlocate s.supply.take.1 0x1FF
  rw [← answer_serve] at hstored
  have htells : ∀ old, (MemoryRequest.store (.bytes 1) 0x1007 0x1FF).tells (some (.word old)) =
      [⟨.write, 0x1007, 1, 0xFF⟩] := fun _ => rfl
  refine ⟨?_, hrejected _ (by decide), hcount⟩
  rw [hnotices, hstored, htells]
  decide +kernel

end Session
end ArchState
