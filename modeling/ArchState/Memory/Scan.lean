import ArchState.Memory.Access

/-! # Looking for a null word

The search goes upwards word by word. It ends at a null word, at the limit, at a word that no
segment owns, or at the end of the address space.
-/
namespace ArchState.Memory

/-- The first null word from `a` on and below `limit`, or where the search ended. -/
def firstNull (m : Memory) (a limit : UInt32) : Except AddressFault UInt32 :=
  if a < limit then
    match m.rawWord? a with
    | .error fault => .error fault
    | .ok none => .ok a
    | .ok (some _) => if a.toNat + 4 < 0x100000000 then firstNull m (a + 4) limit else .ok a
  else .ok a
termination_by limit.toNat - a.toNat
decreasing_by
  have h := UInt32.lt_iff_toNat_lt.mp ‹a < limit›
  rw [UInt32.toNat_add]
  have : (4 : UInt32).toNat = 4 := rfl
  omega

end ArchState.Memory
