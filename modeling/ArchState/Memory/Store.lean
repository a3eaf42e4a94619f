import ArchState.Memory.Basic
import ArchState.Word.Mask

/-! # Loads and stores

An access touches one, two or four bytes. A store finds the segment that it goes to, or the fault
that it raises, from the address, the length and the segments alone, and so does a load, by checks
of its own. Bytes are stored least significant first. An access is split into the parts that lie in
one word each, and every part is read or replaced under a mask. An access to text stays within one
word.
-/
namespace ArchState.Memory

def textTarget (m : Memory) (a : UInt32) (length : Nat) : Except AddressFault Segment :=
  if !m.selfModifying then .error ⟨.write, .textForbidden, a⟩
  else if 4 < a.toNat % 4 + length then .error ⟨.write, .misaligned, a⟩
  else .ok .text

/-- The segment that a store goes to. -/
def storeTarget (m : Memory) (a : UInt32) (length : Nat) : Except AddressFault Segment :=
  if length ≠ 1 ∧ length ≠ 2 ∧ length ≠ 4 then .error ⟨.write, .misaligned, a⟩
  else if 0x100000000 < a.toNat + length then .error ⟨.write, .outOfRange, a⟩
  else match m.segments.owner? a with
    | none => .error ⟨.write, .outOfRange, a⟩
    | some .text => m.textTarget a length
    | some seg =>
      if m.segments.owner? (a + UInt32.ofNat (length - 1)) = some seg then .ok seg
      else .error ⟨.write, .outOfRange, a⟩

/-- The segment that a load reads. -/
def loadSource (m : Memory) (a : UInt32) (length : Nat) : Except AddressFault Segment :=
  if length ≠ 1 ∧ length ≠ 2 ∧ length ≠ 4 then .error ⟨.read, .misaligned, a⟩
  else if 0x100000000 < a.toNat + length then .error ⟨.read, .outOfRange, a⟩
  else match m.segments.owner? a with
    | none => .error ⟨.read, .outOfRange, a⟩
    | some .text =>
      if !m.selfModifying then .error ⟨.read, .textForbidden, a⟩
      else if 4 < a.toNat % 4 + length then .error ⟨.read, .misaligned, a⟩
      else .ok .text
    | some seg =>
      if m.segments.owner? (a + UInt32.ofNat (length - 1)) = some seg then .ok seg
      else .error ⟨.read, .outOfRange, a⟩

/-- The bytes of an access that lie in one word: `count` bytes from `address` on, which come
after the first `done` bytes of the access. -/
structure Part where
  address : UInt32
  done : Nat
  count : Nat
  deriving DecidableEq, Repr

def Part.offset (p : Part) : Nat := p.address.toNat % 4

/-- The parts of an access to at most four bytes, which spans two words at most. -/
def parts (a : UInt32) (length : Nat) : List Part :=
  let first := min (4 - a.toNat % 4) length
  ⟨a, 0, first⟩ ::
    if first < length then [⟨a + UInt32.ofNat first, first, length - first⟩] else []

/-- The bytes of a part of an access, at their place in the value of the access. -/
def loadPart (m : Memory) (seg : Segment) (p : Part) : UInt32 :=
  Word.up (Word.extract (m.wordAt seg p.address) p.offset p.count) p.done

def writePart (m : Memory) (seg : Segment) (v : UInt32) (p : Part) : Memory :=
  m.putWord seg (wordBase p.address)
    (Word.insert (m.wordAt seg p.address) p.offset p.count (Word.down v p.done))

def load (m : Memory) (seg : Segment) (a : UInt32) (length : Nat) : UInt32 :=
  (parts a length).foldl (fun value p => value ||| m.loadPart seg p) 0

/-- Writes parts of an access one after the other and adds to `old` what they held. A part
past the table of the segment is a fault, which leaves the parts before it written. -/
def storeParts (m : Memory) (seg : Segment) (v old : UInt32) :
    List Part → Step Memory (Except AddressFault UInt32)
  | [] => .quiet (.ok old) m
  | p :: ps =>
    if m.segments.slot seg p.address < m.image.length seg * blockWords then
      (m.writePart seg v p).storeParts seg v (old ||| m.loadPart seg p) ps
    else .quiet (.error ⟨.write, .outOfRange, p.address⟩) m

def fetch (m : Memory) (a : UInt32) (length : Nat) : Except AddressFault UInt32 :=
  (m.loadSource a length).map fun seg => m.load seg a length

def store (m : Memory) (a v : UInt32) (length : Nat) : Step Memory (Except AddressFault UInt32) :=
  .guarded (m.storeTarget a length) m fun seg => m.storeParts seg v 0 (parts a length)

theorem wordAt?_putWord {m : Memory} (hd : m.decoder.Faithful) {seg : Segment} {a : UInt32}
    (ha : m.segments.slot seg a < m.image.length seg * blockWords) (w : UInt32)
    (other : Segment) (b : UInt32) :
    (m.putWord seg a w).wordAt? other b =
      if seg = other ∧ m.segments.slot seg a = m.segments.slot other b then some w
      else m.wordAt? other b :=
  Image.word?_write hd m.image seg ha a w other _

end ArchState.Memory
