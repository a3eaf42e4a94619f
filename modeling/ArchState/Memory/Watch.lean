import ArchState.Memory.Basic

/-! # Observers of memory

An observer is registered for a range of words under a handle. The whole address space is
observed as two ranges under one handle, since a single range must not cross the boundary
between its two halves.
-/
namespace ArchState.Memory

def signBoundary : UInt32 := 0x80000000

def notify (m : Memory) (access : Access) (a : UInt32) (length : Nat) (value : UInt32) :
    List Signal :=
  (m.registrations.filter (·.watches a)).map fun r => .memory r.id ⟨access, a, length, value⟩

def observeAll (m : Memory) (id : ObserverId) : Memory :=
  { m with registrations :=
      m.registrations ++ [⟨id, 0, signBoundary - 4⟩, ⟨id, signBoundary, 0xFFFFFFFC⟩] }

def observeRange (m : Memory) (id : ObserverId) (first last : UInt32) :
    Except WatchFault Memory :=
  if last < first then .error (.inverted first last)
  else if first < signBoundary ∧ signBoundary ≤ last then
    .error (.straddlesSignBoundary first last)
  else .ok { m with registrations := m.registrations ++ [⟨id, first, last⟩] }

def observeAt (m : Memory) (id : ObserverId) (a : UInt32) : Except WatchFault Memory :=
  m.observeRange id a a

def unobserve (m : Memory) (id : ObserverId) : Bool × Memory :=
  (m.registrations.any (·.id == id),
    { m with registrations := m.registrations.filter (·.id != id) })

def unobserveAll (m : Memory) : Memory := { m with registrations := [] }

def observers (m : Memory) : List ObserverId := (m.registrations.map (·.id)).eraseDups

theorem mem_notify {m : Memory} {access : Access} {a : UInt32} {length : Nat} {value : UInt32}
    {s : Signal} : s ∈ m.notify access a length value ↔
      ∃ r ∈ m.registrations, r.watches a = true ∧ s = .memory r.id ⟨access, a, length, value⟩ := by
  simp only [notify, List.mem_map, List.mem_filter]
  constructor
  · rintro ⟨r, ⟨hr, hw⟩, rfl⟩
    exact ⟨r, hr, hw, rfl⟩
  · rintro ⟨r, hr, hw, rfl⟩
    exact ⟨r, ⟨hr, hw⟩, rfl⟩

end ArchState.Memory
