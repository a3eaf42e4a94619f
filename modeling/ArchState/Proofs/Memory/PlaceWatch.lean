import ArchState.Proofs.Memory.Notices

/-! # Observers of one place

An observer of a place is told of accesses at the four addresses from this place on. These are the
addresses of the word that holds the place exactly if the word starts there. Otherwise the observer
is told of the next word and not of this one.
-/
namespace ArchState

namespace Region
variable {a b : UInt32}

theorem covers_place_iff :
    (place a).covers b = true ↔ a.toNat ≤ b.toNat ∧ b.toNat ≤ a.toNat + 3 := by
  simp [covers]

theorem same_word_iff : b &&& ~~~3 = a &&& ~~~3 ↔ b.toNat / 4 = a.toNat / 4 := by
  rw [← wordBase_eq_and, ← wordBase_eq_and, Segments.wordBase_eq_iff]

theorem place_covers_word_iff :
    (∀ b, (place a).covers b = true ↔ b &&& ~~~3 = a &&& ~~~3) ↔ a.toNat % 4 = 0 := by
  simp only [covers_place_iff, same_word_iff]
  constructor
  · intro h
    -- the word that holds `a` starts in it
    have hstart := h (wordBase a)
    rw [wordBase_toNat] at hstart
    omega
  · intro ha b
    omega

/-- Of the words, a place covers the first one that starts from there on. -/
theorem place_covers_next_word (hb : b.toNat % 4 = 0) :
    (place a).covers b = true ↔ b.toNat = (a.toNat + 3) / 4 * 4 := by
  rw [covers_place_iff]
  omega

end Region

theorem Memory.locate_of_data {m : Memory} {l : Layout} {access : Access} {a : UInt32}
    {length : Nat} (hlayout : m.layout = l)
    (h : (length = 1 ∨ length = 2 ∨ length = 4) ∧ a.toNat + length ≤ 0x100000000 ∧
      (Segments.ofLayout l).owner? a = some .data ∧
      (Segments.ofLayout l).owner? (a + UInt32.ofNat (length - 1)) = some .data) :
    m.locate access a length = .ok .data := by
  obtain ⟨hlength, hend, hfirst, hlast⟩ := h
  subst hlayout
  exact locate_eq_ok_iff.mpr ⟨hlength, hend, hfirst, hlast, fun h => absurd h (by decide)⟩

theorem filter_goesTo_flatMap {registrations : List Registration} {id : ObserverId}
    {region : Region}
    (h : ∀ n, (delivered registrations n).filter (Signal.goesTo id) =
      if region.covers n.address then [.memory id n] else []) (ns : List MemoryNotice) :
    (ns.flatMap (delivered registrations)).filter (Signal.goesTo id) =
      (ns.filter fun n => region.covers n.address).map (Signal.memory id) := by
  induction ns with
  | nil => rfl
  | cons n ns ih =>
    rw [List.flatMap_cons, List.filter_append, h, ih, List.filter_cons]
    split <;> simp

namespace Session
variable {s : Session} {events : List WatchEvent} {id : ObserverId} {region : Region}

/-- Of the notices of a request, a handle that lives is sent those that its region covers, and each
of them once. -/
theorem notices_to_living (h : Watched s events) (hliving : (id, region) ∈ WatchEvent.living events)
    (request : MemoryRequest) :
    (Signal.notices (s.serve request).signals).filter (Signal.goesTo id) =
      ((request.tells (s.serve request).answer).filter fun n => region.covers n.address).map
        (Signal.memory id) := by
  have hnotices : Signal.notices (s.serve request).signals =
      (request.tells (s.serve request).answer).flatMap (delivered (WatchEvent.live events)) := by
    rw [← h.tracks.registrations]
    exact s.memory.notices_serve s.supply.take.1 request
  rw [hnotices]
  exact filter_goesTo_flatMap (h.tracks.told hliving) _

/-- A store of some bytes in one segment is made, and a handle that lives is told of it if its
region covers the address. -/
theorem told_of_storeBytes (h : Watched s events)
    (hliving : (id, region) ∈ WatchEvent.living events) {b : UInt32} {length : Nat} {seg : Segment}
    (hlocate : s.memory.locate .write b length = .ok seg) (d : UInt64) :
    (∃ old, (s.serve (.store (.bytes length) b d)).answer = some (.word old)) ∧
      (Signal.notices (s.serve (.store (.bytes length) b d)).signals).filter (Signal.goesTo id) =
        if region.covers b then
          [.memory id (Memory.StoreRequest.notice ⟨b, DoubleWord.lowWord d, length⟩)]
        else [] := by
  have hanswer := Memory.answer_storeBytes hlocate s.supply.take.1 d
  rw [← answer_serve] at hanswer
  have htells : ∀ old, (MemoryRequest.store (.bytes length) b d).tells (some (.word old)) =
      [Memory.StoreRequest.notice ⟨b, DoubleWord.lowWord d, length⟩] := fun _ => rfl
  refine ⟨⟨_, hanswer⟩, ?_⟩
  rw [notices_to_living h hliving, hanswer, htells, List.filter_singleton,
    show (Memory.StoreRequest.notice ⟨b, DoubleWord.lowWord d, length⟩).address = b from rfl]
  cases region.covers b <;> rfl

/-- A place can always be registered, and its handle lives from then on. -/
theorem place_registered (h : Watched s events) (a : UInt32) :
    ∃ id, (s.serve (.observe (.place a))).answer = some (.handle id) ∧
      Watched (s.serve (.observe (.place a))).state (events ++ [.registered id (.place a)]) ∧
      (id, .place a) ∈ WatchEvent.living (events ++ [.registered id (.place a)]) := by
  have hserve := serve_observe (show (Region.place a).accepted = true from rfl) s
  have hanswer : (s.serve (.observe (.place a))).answer = some (.handle s.supply.take.1) := by
    rw [hserve]
  have hwatched := h.asked (.observe (.place a))
  rw [hanswer] at hwatched
  exact ⟨s.supply.take.1, hanswer, hwatched, by simp⟩

/-- Whoever observes a place is told of every access at one of the four addresses from there on, and
of no other. These are the addresses of the word that holds the place exactly if the word starts
there. Otherwise, of the accesses to whole words, those to the next word are told. -/
theorem place_told_from_address (h : Watched s events) (a : UInt32) :
    (∃ id, (s.serve (.observe (.place a))).answer = some (.handle id) ∧
      Watched (s.serve (.observe (.place a))).state (events ++ [.registered id (.place a)]) ∧
      (id, .place a) ∈ WatchEvent.living (events ++ [.registered id (.place a)])) ∧
    (∀ id, (id, Region.place a) ∈ WatchEvent.living events → ∀ request,
      (Signal.notices (s.serve request).signals).filter (Signal.goesTo id) =
        ((request.tells (s.serve request).answer).filter
          fun n => (Region.place a).covers n.address).map (Signal.memory id)) ∧
    (∀ b, (Region.place a).covers b = true ↔ a.toNat ≤ b.toNat ∧ b.toNat ≤ a.toNat + 3) ∧
    ((∀ b, (Region.place a).covers b = true ↔ b &&& ~~~3 = a &&& ~~~3) ↔ a.toNat % 4 = 0) ∧
    ∀ b : UInt32, b.toNat % 4 = 0 →
      ((Region.place a).covers b = true ↔ b.toNat = (a.toNat + 3) / 4 * 4) :=
  ⟨place_registered h a, fun _ hliving request => notices_to_living h hliving request,
    fun _ => Region.covers_place_iff, Region.place_covers_word_iff,
    fun _ hb => Region.place_covers_next_word hb⟩

/-- Whoever observes the place where a word starts is told of the last byte of this word, and is not
told of a store that starts before the word and reaches into it. -/
theorem byte_of_word_told :
    let start : Session := ⟨.ofLayout .compactTextAtZero, {}⟩
    let s := (start.serve (.observe (.place 0x1004))).state
    let inside := s.serve (.store (.bytes 1) 0x1007 0x1FF)
    let before := s.serve (.store (.bytes 4) 0x1003 0x1FF)
    Watched s [.registered ⟨1⟩ (.place 0x1004)] ∧
      (Signal.notices inside.signals).filter (Signal.goesTo ⟨1⟩) =
        [.memory ⟨1⟩ ⟨.write, 0x1007, 1, 0xFF⟩] ∧
      (Signal.notices before.signals).filter (Signal.goesTo ⟨1⟩) = [] ∧
      ∀ b, (Region.place 0x1004).covers b = true ↔ b &&& ~~~3 = 0x1004 &&& ~~~3 := by
  intro start s inside before
  have hwatched : Watched s [.registered ⟨1⟩ (.place 0x1004)] :=
    Watched.asked (s := start) (.observe (.place 0x1004)) (.start _ _)
  have hliving : (⟨1⟩, .place 0x1004) ∈ WatchEvent.living [.registered ⟨1⟩ (.place 0x1004)] :=
    List.mem_singleton_self _
  have hinside : s.memory.locate .write 0x1007 1 = .ok .data :=
    Memory.locate_of_data (l := .compactTextAtZero) rfl (by decide +kernel)
  have hbefore : s.memory.locate .write 0x1003 4 = .ok .data :=
    Memory.locate_of_data (l := .compactTextAtZero) rfl (by decide +kernel)
  obtain ⟨⟨old, hanswer⟩, -⟩ := told_of_storeBytes hwatched hliving hinside 0x1FF
  obtain ⟨⟨older, hanswerBefore⟩, -⟩ := told_of_storeBytes hwatched hliving hbefore 0x1FF
  obtain ⟨-, htold, -, hword, -⟩ := place_told_from_address hwatched 0x1004
  refine ⟨hwatched, ?_, ?_, hword.mpr (by decide)⟩
  · rw [htold _ hliving, hanswer]
    rfl
  · rw [htold _ hliving, hanswerBefore]
    rfl

/-- Whoever observes a place inside a word is not told of the access to this word, but is told of
the access to the next one. -/
theorem place_in_word_misses_word :
    let start : Session := ⟨.ofLayout .default, {}⟩
    let s := (start.serve (.observe (.place 0x10010002))).state
    let here := s.serve (.store (.bytes 4) 0x10010000 7)
    let next := s.serve (.store (.bytes 4) 0x10010004 8)
    Watched s [.registered ⟨1⟩ (.place 0x10010002)] ∧
      (0x10010000 : UInt32) &&& ~~~3 = 0x10010002 &&& ~~~3 ∧
      (∃ old, here.answer = some (.word old)) ∧
      (Signal.notices here.signals).filter (Signal.goesTo ⟨1⟩) = [] ∧
      (0x10010004 : UInt32) &&& ~~~3 ≠ 0x10010002 &&& ~~~3 ∧
      (∃ old, next.answer = some (.word old)) ∧
      (Signal.notices next.signals).filter (Signal.goesTo ⟨1⟩) =
        [.memory ⟨1⟩ ⟨.write, 0x10010004, 4, 8⟩] := by
  intro start s here next
  have hwatched : Watched s [.registered ⟨1⟩ (.place 0x10010002)] :=
    Watched.asked (s := start) (.observe (.place 0x10010002)) (.start _ _)
  have hliving : (⟨1⟩, .place 0x10010002) ∈
      WatchEvent.living [.registered ⟨1⟩ (.place 0x10010002)] := List.mem_singleton_self _
  have hhere : s.memory.locate .write 0x10010000 4 = .ok .data :=
    Memory.locate_of_data (l := .default) rfl (by decide +kernel)
  have hnext : s.memory.locate .write 0x10010004 4 = .ok .data :=
    Memory.locate_of_data (l := .default) rfl (by decide +kernel)
  obtain ⟨hmade, huntold⟩ := told_of_storeBytes hwatched hliving hhere 7
  obtain ⟨hmadeNext, htold⟩ := told_of_storeBytes hwatched hliving hnext 8
  exact ⟨hwatched, by decide, hmade, huntold, by decide, hmadeNext, htold⟩

end Session
end ArchState
