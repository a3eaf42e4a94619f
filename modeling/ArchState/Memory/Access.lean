import ArchState.Memory.Store
import ArchState.Memory.Watch

/-! # Accesses with notices and undo records

The accesses that programs make. A successful one tells the observers of the address what was
read or written; a successful store of a word, half word, byte or double word also sends what
the place held before to the sink. A load that fails tells nobody and a store that fails
sends no record.
-/
namespace ArchState.Memory

def checkAligned (access : Access) (a : UInt32) (alignment : Nat) : Except AddressFault Unit :=
  if a.toNat % alignment = 0 then .ok () else .error ⟨access, .misaligned, a⟩

def set (m : Memory) (a v : UInt32) (length : Nat) : Step Memory (Except AddressFault UInt32) :=
  (m.store a v length).thenTry fun old m =>
    ⟨.ok old, m, m.notify .write a length (Word.low v length)⟩

def get (m : Memory) (a : UInt32) (length : Nat) : Reading (Except AddressFault UInt32) :=
  .guarded (m.fetch a length) fun v => ⟨.ok v, m.notify .read a length v⟩

/-- Writes an aligned unit of `length` bytes, with a record that `record` makes from the
address and the previous contents. -/
def setAligned (m : Memory) (a v : UInt32) (length : Nat)
    (record : UInt32 → UInt32 → UndoRecord) : Step Memory (Except AddressFault UInt32) :=
  .guarded (checkAligned .write a length) m fun _ =>
    (m.set a v length).thenTry fun old m => ⟨.ok old, m, Sink.signals m.sink (record a old)⟩

def getAligned (m : Memory) (a : UInt32) (length : Nat) : Reading (Except AddressFault UInt32) :=
  .guarded (checkAligned .read a length) fun _ => m.get a length

def setWord (m : Memory) (a v : UInt32) : Step Memory (Except AddressFault UInt32) :=
  m.setAligned a v 4 .word

def setHalf (m : Memory) (a v : UInt32) : Step Memory (Except AddressFault UInt32) :=
  m.setAligned a v 2 .half

def setByte (m : Memory) (a v : UInt32) : Step Memory (Except AddressFault UInt32) :=
  m.setAligned a v 1 .byte

/-- Writes a word as `setWord` does, under a record of its own. -/
def setRawWord (m : Memory) (a v : UInt32) : Step Memory (Except AddressFault UInt32) :=
  m.setAligned a v 4 .rawWord

def getWord (m : Memory) (a : UInt32) : Reading (Except AddressFault UInt32) := m.getAligned a 4

def getHalf (m : Memory) (a : UInt32) : Reading (Except AddressFault UInt32) := m.getAligned a 2

def getByte (m : Memory) (a : UInt32) : Reading (Except AddressFault UInt32) := m.getAligned a 1

def fetchWord (m : Memory) (a : UInt32) : Except AddressFault UInt32 := do
  checkAligned .read a 4
  m.fetch a 4

def upperHalf (access : Access) (a : UInt32) : Except AddressFault UInt32 := do
  checkAligned access a 4
  if a.toNat + 4 < 0x100000000 then .ok (a + 4) else .error ⟨access, .outOfRange, a⟩

/-- Fails as a store of a word at `a` would, and writes nothing. -/
def checkWordStore (m : Memory) (a : UInt32) : Except AddressFault Unit :=
  if 0x100000000 < a.toNat + 4 then .error ⟨.write, .outOfRange, a⟩
  else match m.segments.owner? a with
    | none => .error ⟨.write, .outOfRange, a⟩
    | some .text => if m.selfModifying then .ok () else .error ⟨.write, .textForbidden, a⟩
    | some seg =>
      if m.segments.owner? (a + 3) = some seg then .ok () else .error ⟨.write, .outOfRange, a⟩

def checkDoubleStore (m : Memory) (a : UInt32) : Except AddressFault UInt32 := do
  let b ← upperHalf .write a
  m.checkWordStore a
  m.checkWordStore b
  return b

/-- Writes a double word as two words, the less significant one first, without a record. Both
stores are checked before the first one is made. -/
def storeDouble (m : Memory) (a : UInt32) (d : UInt64) : Step Memory (Except AddressFault UInt64) :=
  .guarded (m.checkDoubleStore a) m fun b =>
    (m.set a (DoubleWord.lowWord d) 4).thenTry fun low m =>
      (m.set b (DoubleWord.highWord d) 4).thenTry fun high m =>
        .quiet (.ok (DoubleWord.ofWords low high)) m

def setDouble (m : Memory) (a : UInt32) (d : UInt64) : Step Memory (Except AddressFault UInt64) :=
  (m.storeDouble a d).thenTry fun old m => ⟨.ok old, m, Sink.signals m.sink (.doubleWord a old)⟩

/-- Reads a double word; both words are read before anybody is told. -/
def getDouble (m : Memory) (a : UInt32) : Reading (Except AddressFault UInt64) :=
  .guarded (upperHalf .read a) fun b =>
    .guarded (m.fetch a 4) fun low =>
      .guarded (m.fetch b 4) fun high =>
        ⟨.ok (DoubleWord.ofWords low high), m.notify .read a 4 low ++ m.notify .read b 4 high⟩

/-- The word at an aligned address, or none if it is null. Text is read as encodings, whether
or not programs may read it. -/
def rawWord? (m : Memory) (a : UInt32) : Except AddressFault (Option UInt32) := do
  checkAligned .read a 4
  match m.segments.owner? a with
  | some seg => .ok (m.wordAt? seg a)
  | none => .error ⟨.read, .outOfRange, a⟩

def rawWord (m : Memory) (a : UInt32) : Except AddressFault UInt32 :=
  (m.rawWord? a).map (·.getD 0)

/-- Writes back what a record of memory holds, with notices and without a new record. A record
of a register concerns no memory. -/
def restore (m : Memory) (record : UndoRecord) : Step Memory (Except AddressFault Unit) :=
  match record with
  | .word a v => (m.set a v 4).map (·.map fun _ => ())
  | .half a v => (m.set a v 2).map (·.map fun _ => ())
  | .byte a v => (m.set a v 1).map (·.map fun _ => ())
  | .rawWord a v =>
    .guarded (checkAligned .write a 4) m fun _ => (m.set a v 4).map (·.map fun _ => ())
  | .doubleWord a d => (m.storeDouble a d).map (·.map fun _ => ())
  | .register _ _ | .floatRegister _ _ | .controlRegister _ _ | .programCounter _ =>
    .quiet (.ok ()) m

end ArchState.Memory
