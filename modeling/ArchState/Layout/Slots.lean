import ArchState.Layout.Segments

/-! # Slots of segments

Every segment of a layout is a non-empty interval of whole words below `2 ^ 32`. Each of its
addresses has a place inside the table, and two of them share a place exactly when they lie
in one word.
-/
namespace ArchState.Segments

theorem wordBase_eq_iff {a b : UInt32} : wordBase a = wordBase b ↔ a.toNat / 4 = b.toNat / 4 := by
  rw [← UInt32.toNat_inj, wordBase_toNat, wordBase_toNat]
  omega

theorem upward_stop_mod {low : UInt32} (h : low.toNat % 4 = 0) (high : UInt32) (blocks : Nat) :
    (upward low high blocks).stop % 4 = 0 := by
  simp only [upward, blockBytes, blockWords]
  omega

theorem upward_base_lt {low high : UInt32} (h : low ≤ high) {blocks : Nat} (hb : 0 < blocks) :
    (upward low high blocks).base < (upward low high blocks).stop := by
  rw [UInt32.le_iff_toNat_le] at h
  simp only [upward, blockBytes, blockWords]
  omega

theorem upward_stop_le (low high : UInt32) (blocks : Nat) :
    (upward low high blocks).stop ≤ 0x100000000 := by
  have hl := low.toNat_lt
  have hh := high.toNat_lt
  simp only [upward, blockBytes, blockWords]
  omega

theorem downward_base_mod {low top : UInt32} (hl : low.toNat % 4 = 0) (ht : top.toNat % 4 = 0)
    (blocks : Nat) : (downward low top blocks).base % 4 = 0 := by
  simp only [downward, blockBytes, blockWords]
  omega

theorem downward_stop_mod (low : UInt32) {top : UInt32} (ht : top.toNat % 4 = 0) (blocks : Nat) :
    (downward low top blocks).stop % 4 = 0 := by
  simp only [downward]
  omega

theorem downward_base_lt {low top : UInt32} (h : low.toNat < top.toNat + 4) {blocks : Nat}
    (hb : 0 < blocks) : (downward low top blocks).base < (downward low top blocks).stop := by
  simp only [downward, blockBytes, blockWords]
  omega

theorem downward_stop_le (low : UInt32) {top : UInt32} (ht : top.toNat % 4 = 0) (blocks : Nat) :
    (downward low top blocks).stop ≤ 0x100000000 := by
  have h := top.toNat_lt
  simp only [downward]
  omega

variable (l : Layout)

theorem stackBase_mod : l.stackBase.toNat % 4 = 0 := by
  rw [l.stackBase_toNat]
  omega

theorem ofLayout_base_mod (seg : Segment) : ((ofLayout l).bounds seg).base % 4 = 0 := by
  cases seg with
  | text => exact l.aligned .text
  | data => exact l.aligned .data
  | stack => exact downward_base_mod (l.aligned .stack) (stackBase_mod l) _
  | mmio => exact l.aligned .mmio

theorem ofLayout_stop_mod (seg : Segment) : ((ofLayout l).bounds seg).stop % 4 = 0 := by
  cases seg with
  | text => exact upward_stop_mod (l.aligned .text) _ _
  | data => exact upward_stop_mod (l.aligned .data) _ _
  | stack => exact downward_stop_mod _ (stackBase_mod l) _
  | mmio => exact upward_stop_mod (l.aligned .mmio) _ _

theorem ofLayout_base_lt (seg : Segment) :
    ((ofLayout l).bounds seg).base < ((ofLayout l).bounds seg).stop := by
  cases seg with
  | text => exact upward_base_lt l.sections.text.low_le_high (by decide)
  | data =>
    refine upward_base_lt ?_ (by decide)
    have h := UInt32.le_iff_toNat_le.mp l.sections.data.low_le_high
    rw [UInt32.le_iff_toNat_le, l.dataSegmentLimit_toNat]
    exact Nat.le_trans h (Nat.le_max_left _ _)
  | stack =>
    refine downward_base_lt ?_ (by decide)
    have h := UInt32.le_iff_toNat_le.mp l.sections.stack.low_le_high
    rw [l.stackBase_toNat]
    change l.sections.stack.low.toNat < _
    omega
  | mmio => exact upward_base_lt l.sections.mmio.low_le_high (by decide)

theorem ofLayout_stop_le (seg : Segment) : ((ofLayout l).bounds seg).stop ≤ 0x100000000 := by
  cases seg with
  | text => exact upward_stop_le _ _ _
  | data => exact upward_stop_le _ _ _
  | stack => exact downward_stop_le _ (stackBase_mod l) _
  | mmio => exact upward_stop_le _ _ _

variable {l}

theorem slot_eq {seg : Segment} {a : UInt32} (h : ((ofLayout l).bounds seg).contains a = true) :
    (ofLayout l).slot seg a =
      match seg with
      | .stack => ((ofLayout l).bounds seg).stop / 4 - 1 - a.toNat / 4
      | _ => a.toNat / 4 - ((ofLayout l).bounds seg).base / 4 := by
  have hb := ofLayout_base_mod l seg
  have hs := ofLayout_stop_mod l seg
  rw [Bounds.contains_iff] at h
  cases seg <;> simp only [slot, stackTop, bounds] at * <;> omega

theorem slot_lt {seg : Segment} {a : UInt32} (h : ((ofLayout l).bounds seg).contains a = true) :
    (ofLayout l).slot seg a < (ofLayout l).blocks seg * blockWords := by
  have hb := ofLayout_base_mod l seg
  have hs := ofLayout_stop_mod l seg
  rw [slot_eq h]
  rw [Bounds.contains_iff] at h
  cases seg <;> simp only [blocks, Bounds.size, blockBytes, blockWords] at * <;> omega

/-- Two addresses of a segment share a place exactly when they lie in one word. -/
theorem slot_inj {seg : Segment} {a b : UInt32}
    (ha : ((ofLayout l).bounds seg).contains a = true)
    (hb : ((ofLayout l).bounds seg).contains b = true) :
    (ofLayout l).slot seg a = (ofLayout l).slot seg b ↔ wordBase a = wordBase b := by
  have hm := ofLayout_base_mod l seg
  have hs := ofLayout_stop_mod l seg
  rw [slot_eq ha, slot_eq hb, wordBase_eq_iff]
  rw [Bounds.contains_iff] at ha hb
  cases seg <;> simp only at * <;> omega

theorem contains_congr {a b : UInt32} (h : wordBase a = wordBase b) (seg : Segment) :
    ((ofLayout l).bounds seg).contains a = ((ofLayout l).bounds seg).contains b := by
  have hm := ofLayout_base_mod l seg
  have hs := ofLayout_stop_mod l seg
  rw [wordBase_eq_iff] at h
  rw [Bool.eq_iff_iff, Bounds.contains_iff, Bounds.contains_iff]
  omega

theorem owner?_congr {a b : UInt32} (h : wordBase a = wordBase b) :
    (ofLayout l).owner? a = (ofLayout l).owner? b := by
  have hc : ∀ seg : Segment, _ := contains_congr (l := l) h
  have hd := hc .data
  have hs := hc .stack
  have hm := hc .mmio
  have ht := hc .text
  simp only [bounds] at hd hs hm ht
  simp only [owner?, hd, hs, hm, ht]

end ArchState.Segments
