import ArchState.Layout.Error

/-! # Address ranges

A range holds every address from its lowest to its highest one, both included, and so is
never empty.
-/
namespace ArchState

structure Range where
  low : UInt32
  high : UInt32
  low_le_high : low ≤ high
  deriving DecidableEq

namespace Range

def between (low high : UInt32) : Except LayoutError Range :=
  if h : low ≤ high then .ok ⟨low, high, h⟩ else .error (.invalidRange low high)

def size (r : Range) : Nat := r.high.toNat - r.low.toNat + 1

def contains (r : Range) (a : UInt32) : Bool := r.low ≤ a && a ≤ r.high

def combine (r s : Range) : Range where
  low := min r.low s.low
  high := max r.high s.high
  low_le_high := by
    have hr := UInt32.le_iff_toNat_le.mp r.low_le_high
    rw [UInt32.le_iff_toNat_le]
    simp only [min, max, UInt32.le_iff_toNat_le] at *
    split <;> split <;> omega

def text (r : Range) : String := Text.address r.low ++ "-" ++ Text.address r.high

theorem between_eq_ok_iff {low high : UInt32} {r : Range} :
    between low high = .ok r ↔ r.low = low ∧ r.high = high := by
  obtain ⟨l, h, hlh⟩ := r
  unfold between
  split
  · simp [eq_comm]
  · rename_i hn
    simp only [reduceCtorEq, false_iff, not_and]
    rintro rfl rfl
    exact hn hlh

theorem contains_iff {r : Range} {a : UInt32} : r.contains a = true ↔ r.low ≤ a ∧ a ≤ r.high := by
  simp [contains]

end Range
end ArchState
