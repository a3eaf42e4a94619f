import ArchState.Memory.Access

/-! # Statements in memory

Statements are installed and read at aligned addresses of the text segment, whatever other
segment may lie over it.
-/
namespace ArchState.Memory

def checkText (m : Memory) (access : Access) (a : UInt32) : Except AddressFault Unit := do
  checkAligned access a 4
  if m.segments.text.contains a then .ok () else .error ⟨access, .outOfRange, a⟩

def statementAt? (m : Memory) (a : UInt32) : Option Statement :=
  m.image.text.slot (m.segments.slot .text a)

def setStatement (m : Memory) (a : UInt32) (st : Statement) :
    Except AddressFault (Option Statement × Memory) :=
  (m.checkText .write a).map fun _ => (m.statementAt? a, m.putStatement a st)

def fetchStatement (m : Memory) (a : UInt32) : Except AddressFault (Option Statement) :=
  (m.checkText .read a).map fun _ => m.statementAt? a

def getStatement (m : Memory) (a : UInt32) : Reading (Except AddressFault (Option Statement)) :=
  .guarded (m.fetchStatement a) fun st =>
    ⟨.ok st, m.notify .read a 4 ((st.map Statement.binary).getD 0)⟩

variable {m : Memory} {a : UInt32}

theorem checkText_eq_ok_iff (access : Access) :
    m.checkText access a = .ok () ↔ a.toNat % 4 = 0 ∧ m.inSegment .text a = true := by
  have hin : m.inSegment .text a = m.segments.text.contains a := rfl
  rw [hin, checkText, checkAligned]
  by_cases haligned : a.toNat % 4 = 0
  · rw [if_pos haligned]
    cases m.segments.text.contains a
    · exact ⟨nofun, fun h => nomatch h.2⟩
    · exact ⟨fun _ => ⟨haligned, rfl⟩, fun _ => rfl⟩
  · rw [if_neg haligned]
    exact ⟨nofun, fun h => absurd h.1 haligned⟩

theorem setStatement_of_inSegment (haligned : a.toNat % 4 = 0) (h : m.inSegment .text a = true)
    (st : Statement) : m.setStatement a st = .ok (m.statementAt? a, m.putStatement a st) := by
  rw [setStatement, (checkText_eq_ok_iff .write).mpr ⟨haligned, h⟩]
  rfl

theorem fetchStatement_of_inSegment (haligned : a.toNat % 4 = 0)
    (h : m.inSegment .text a = true) : m.fetchStatement a = .ok (m.statementAt? a) := by
  rw [fetchStatement, (checkText_eq_ok_iff .read).mpr ⟨haligned, h⟩]
  rfl

end ArchState.Memory
