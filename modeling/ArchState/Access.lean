/-! # Observed accesses

An access is a read or a write. A notice describes one access for the observers that watch
the memory or the register concerned; a register notice carries no value.
-/
namespace ArchState

inductive Access where
  | read
  | write
  deriving DecidableEq, Repr

namespace Access

def isRead : Access → Bool
  | read => true
  | write => false

def isWrite : Access → Bool
  | read => false
  | write => true

def text : Access → String
  | read => "read"
  | write => "write"

def instruction : Access → String
  | read => "load"
  | write => "store"

end Access

/-- The handle of a registration. Handles are never used twice. -/
structure ObserverId where
  number : Nat
  deriving DecidableEq, Repr

structure ObserverSupply where
  unused : Nat := 1

namespace ObserverSupply

def take (s : ObserverSupply) : ObserverId × ObserverSupply := (⟨s.unused⟩, ⟨s.unused + 1⟩)

def takeMany (s : ObserverSupply) : Nat → List ObserverId × ObserverSupply
  | 0 => ([], s)
  | count + 1 =>
    let (id, s) := s.take
    let (ids, s) := s.takeMany count
    (id :: ids, s)

end ObserverSupply

/-- An access to `length` bytes from `address` on, with the value read or written. -/
structure MemoryNotice where
  access : Access
  address : UInt32
  length : Nat
  value : UInt32
  deriving DecidableEq, Repr

structure RegisterNotice where
  access : Access
  name : String
  number : Int
  deriving DecidableEq, Repr

inductive Notice where
  | memory (notice : MemoryNotice)
  | register (notice : RegisterNotice)
  deriving DecidableEq, Repr

def Notice.access : Notice → Access
  | memory n => n.access
  | register n => n.access

end ArchState
