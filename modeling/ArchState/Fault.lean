import ArchState.Access
import ArchState.Text.Hex

/-! # Faults

The recoverable errors of memory, of the heap, of observer ranges and of reservations. An
address fault keeps the direction of the access apart from its reason, so that a load and a
store that fail for one reason differ in `access` alone.
-/
namespace ArchState

inductive FaultReason where
  | misaligned
  | outOfRange
  | textForbidden
  deriving DecidableEq, Repr

structure AddressFault where
  access : Access
  reason : FaultReason
  address : UInt32
  deriving DecidableEq, Repr

namespace AddressFault

/-- The exception cause: a misaligned load, a load fault, a misaligned store, a store fault. -/
def cause (f : AddressFault) : Nat :=
  match f.access, f.reason with
  | .read, .misaligned => 4
  | .read, _ => 5
  | .write, .misaligned => 6
  | .write, _ => 7

def isMisaligned (f : AddressFault) : Bool := f.reason == .misaligned

def message (f : AddressFault) : String :=
  (match f.reason, f.access with
    | .misaligned, access => access.instruction ++ " address not aligned to access boundary: "
    | .outOfRange, access => access.instruction ++ " address out of range: "
    | .textForbidden, .read => "cannot read directly from text segment: "
    | .textForbidden, .write => "cannot write directly to text segment: ")
  ++ Text.address f.address

end AddressFault

inductive HeapFault where
  | negativeSize (size : Int)
  | exhausted (size : Int)
  deriving DecidableEq, Repr

def HeapFault.message : HeapFault → String
  | negativeSize size => "request (" ++ toString size ++ ") is negative heap amount"
  | exhausted size => "request (" ++ toString size ++ ") exceeds available heap storage"

inductive WatchFault where
  | inverted (first last : UInt32)
  | straddlesSignBoundary (first last : UInt32)
  deriving DecidableEq, Repr

def WatchFault.message : WatchFault → String
  | inverted first last =>
    "observer range end " ++ Text.address last ++ " is below start " ++ Text.address first
  | straddlesSignBoundary first last =>
    "observer range " ++ Text.address first ++ "..=" ++ Text.address last
      ++ " crosses the 0x80000000 boundary"

inductive ReservationFault where
  | address (fault : AddressFault)
  | noSuchHart (hart harts : Nat)
  deriving DecidableEq, Repr

def ReservationFault.message : ReservationFault → String
  | address fault => fault.message
  | noSuchHart hart harts =>
    "no reservation table for hart " ++ toString hart
      ++ " (" ++ toString harts ++ " harts configured)"

end ArchState
