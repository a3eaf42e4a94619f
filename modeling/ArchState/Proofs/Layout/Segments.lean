import ArchState.Layout.Builtin
import ArchState.Layout.Slots

/-! # Soundness of segments

What a layout gives to a segment runs from the lowest of its addresses to the end of the word that
holds the highest one. Of that the segment keeps as much as its table has room for: the low part, or
the high part of the stack. Bounds and places are natural numbers here. They are the same when they
are computed in words of 32 and 64 bits, since no sum wraps around and no difference falls below
zero.
-/
namespace ArchState

namespace Layout

/-- The lowest address that a layout gives to a segment. -/
def lowest (l : Layout) : Segment → Nat
  | .text => l.sections.text.low.toNat
  | .data => l.sections.data.low.toNat
  | .stack => l.sections.stack.low.toNat
  | .mmio => l.sections.mmio.low.toNat

/-- The highest address that a layout gives to a segment. Data reaches over the heap. -/
def highest (l : Layout) : Segment → Nat
  | .text => l.sections.text.high.toNat
  | .data => max l.sections.data.high.toNat l.sections.heap.high.toNat
  | .stack => l.sections.stack.high.toNat
  | .mmio => l.sections.mmio.high.toNat

/-- Where the word ends that holds the highest address of a segment. -/
def ending (l : Layout) (seg : Segment) : Nat := l.highest seg / 4 * 4 + 4

theorem lowest_lt_ending (l : Layout) (seg : Segment) : l.lowest seg < l.ending seg := by
  have hrange (r : Range) : r.low.toNat ≤ r.high.toNat := UInt32.le_iff_toNat_le.mp r.low_le_high
  have hle : l.lowest seg ≤ l.highest seg := by
    cases seg with
    | text => exact hrange l.sections.text
    | data => exact Nat.le_trans (hrange l.sections.data) (Nat.le_max_left _ _)
    | stack => exact hrange l.sections.stack
    | mmio => exact hrange l.sections.mmio
  rw [ending]
  omega

end Layout

namespace Segments
variable {l : Layout} {seg : Segment} {a : UInt32}

/-- What a segment keeps, in bytes. -/
def kept (l : Layout) (seg : Segment) : Nat :=
  min (l.ending seg - l.lowest seg) (seg.maxBlocks * blockBytes)

theorem bounds_of_ne_stack (l : Layout) (h : seg ≠ .stack) :
    (ofLayout l).bounds seg = ⟨l.lowest seg, l.lowest seg + kept l seg⟩ := by
  cases seg with
  | text => rfl
  | data =>
    simp only [bounds, ofLayout, upward, l.dataSegmentLimit_toNat]
    rfl
  | stack => exact absurd rfl h
  | mmio => rfl

theorem bounds_stack (l : Layout) :
    (ofLayout l).bounds .stack = ⟨l.ending .stack - kept l .stack, l.ending .stack⟩ := by
  simp only [bounds, ofLayout, downward, l.stackBase_toNat]
  rfl

theorem size_eq_kept (l : Layout) (seg : Segment) :
    ((ofLayout l).bounds seg).size = kept l seg := by
  by_cases h : seg = .stack
  · subst h
    have hle : kept l .stack ≤ l.ending .stack :=
      Nat.le_trans (Nat.min_le_left _ _) (Nat.sub_le _ _)
    rw [bounds_stack, Bounds.size, Nat.sub_sub_self hle]
  · rw [bounds_of_ne_stack l h, Bounds.size, Nat.add_sub_cancel_left]

theorem blocks_pos (l : Layout) (seg : Segment) : 0 < (ofLayout l).blocks seg := by
  have hlt := ofLayout_base_lt l seg
  simp only [blocks, Bounds.size, blockBytes, blockWords]
  omega

theorem blocks_le (l : Layout) (seg : Segment) : (ofLayout l).blocks seg ≤ seg.maxBlocks := by
  have hle : kept l seg ≤ seg.maxBlocks * blockBytes := Nat.min_le_right _ _
  rw [blocks, size_eq_kept]
  simp only [blockBytes, blockWords] at *
  omega

/-- Words are counted from the start of a segment upwards. -/
theorem slot_upwards (hne : seg ≠ .stack) (h : ((ofLayout l).bounds seg).contains a = true) :
    ((ofLayout l).bounds seg).base + 4 * (ofLayout l).slot seg a = a.toNat / 4 * 4 := by
  have hmod := ofLayout_base_mod l seg
  rw [slot_eq h]
  rw [Bounds.contains_iff] at h
  cases seg <;> simp only [ne_eq, not_true_eq_false] at * <;> omega

/-- Words of the stack are counted from its highest one downwards. -/
theorem slot_downwards (h : ((ofLayout l).bounds .stack).contains a = true) :
    a.toNat / 4 * 4 + 4 * (ofLayout l).slot .stack a + 4 = ((ofLayout l).bounds .stack).stop := by
  have hmod := ofLayout_stop_mod l .stack
  rw [slot_eq h]
  rw [Bounds.contains_iff] at h
  simp only
  omega

end Segments

/-- Bounds in words: the start has 32 bits and the end 64, since it can be `2 ^ 32`. -/
structure WordBounds where
  base : UInt32
  stop : UInt64

namespace WordBounds

theorem or_three (n : Nat) : n ||| 3 = n / 4 * 4 + 3 := by
  have hlow : ∀ d < 4, d ||| 3 = 3 := by decide
  have hlt : n % 4 < 4 := Nat.mod_lt n (by decide)
  have hsplit (d : Nat) (hd : d < 4) : 4 * (n / 4) ||| d = 4 * (n / 4) + d :=
    (Nat.two_pow_add_eq_or_of_lt (i := 2) hd (n / 4)).symm
  have hn : 4 * (n / 4) ||| n % 4 = n := by
    rw [hsplit _ hlt]
    omega
  calc n ||| 3
      = (4 * (n / 4) ||| n % 4) ||| 3 := by rw [hn]
    _ = 4 * (n / 4) ||| 3 := by rw [Nat.or_assoc, hlow _ hlt]
    _ = n / 4 * 4 + 3 := by rw [hsplit 3 (by decide), Nat.mul_comm]

/-- The difference of two words, or zero if the second one is larger. -/
def saturatingSub (x y : UInt64) : UInt64 := if y ≤ x then x - y else 0

theorem toNat_saturatingSub (x y : UInt64) :
    (saturatingSub x y).toNat = x.toNat - y.toNat := by
  unfold saturatingSub
  split
  · rename_i h
    exact UInt64.toNat_sub_of_le x y h
  · rename_i h
    rw [UInt64.le_iff_toNat_le] at h
    change 0 = _
    omega

theorem toNat_min (x y : UInt64) : (min x y).toNat = min x.toNat y.toNat := by
  simp only [min, UInt64.le_iff_toNat_le]
  split <;> rfl

def upward (low high : UInt32) (blocks : UInt64) : WordBounds :=
  let span := min (saturatingSub ((high.toUInt64 ||| 3) + 1) low.toUInt64) (blocks * 4096)
  ⟨low, low.toUInt64 + span⟩

def downward (low top : UInt32) (blocks : UInt64) : WordBounds :=
  let stop := top.toUInt64 + 4
  let span := min (saturatingSub stop low.toUInt64) (blocks * 4096)
  ⟨(stop - span).toUInt32, stop⟩

/-- Whether words stand for these bounds. -/
structure Represents (w : WordBounds) (b : Bounds) : Prop where
  base : w.base.toNat = b.base
  stop : w.stop.toNat = b.stop

variable {low high top : UInt32} {blocks : UInt64}

theorem toNat_capacity (h : blocks.toNat ≤ 1024) :
    (blocks * 4096).toNat = blocks.toNat * blockBytes := by
  rw [UInt64.toNat_mul]
  change blocks.toNat * 4096 % _ = blocks.toNat * 4096
  omega

theorem represents_upward (hblocks : blocks.toNat ≤ 1024) :
    (upward low high blocks).Represents (Segments.upward low high blocks.toNat) := by
  have hlow := low.toNat_lt
  have hhigh := high.toNat_lt
  have hend : ((high.toUInt64 ||| 3) + 1).toNat = high.toNat / 4 * 4 + 4 := by
    rw [UInt64.toNat_add, UInt64.toNat_or, UInt32.toNat_toUInt64]
    change ((high.toNat ||| 3) + 1) % _ = _
    rw [or_three]
    omega
  refine ⟨rfl, ?_⟩
  simp only [upward, Segments.upward, UInt64.toNat_add, toNat_min, toNat_saturatingSub, hend,
    toNat_capacity hblocks, UInt32.toNat_toUInt64]
  omega

/-- At least one word is kept, so the start is below the end even if the end is `2 ^ 32`. -/
theorem represents_downward (hlow : low.toNat < top.toNat + 4) (htop : top.toNat % 4 = 0)
    (hpos : 0 < blocks.toNat) (hblocks : blocks.toNat ≤ 1024) :
    (downward low top blocks).Represents (Segments.downward low top blocks.toNat) := by
  have hlt := top.toNat_lt
  have hstop : (top.toUInt64 + 4).toNat = top.toNat + 4 := by
    rw [UInt64.toNat_add, UInt32.toNat_toUInt64]
    change (top.toNat + 4) % _ = _
    omega
  have hspan : (min (saturatingSub (top.toUInt64 + 4) low.toUInt64) (blocks * 4096)).toNat =
      min (top.toNat + 4 - low.toNat) (blocks.toNat * blockBytes) := by
    rw [toNat_min, toNat_saturatingSub, hstop, toNat_capacity hblocks, UInt32.toNat_toUInt64]
  have hle : min (saturatingSub (top.toUInt64 + 4) low.toUInt64) (blocks * 4096) ≤
      top.toUInt64 + 4 := by
    rw [UInt64.le_iff_toNat_le, hspan, hstop]
    omega
  refine ⟨?_, hstop⟩
  simp only [downward, Segments.downward, UInt64.toNat_toUInt32, UInt64.toNat_sub_of_le _ _ hle,
    hspan, hstop, blockBytes, blockWords]
  omega

end WordBounds

namespace Layout

/-- The bounds of a segment, computed in words. -/
def wordBounds (l : Layout) : Segment → WordBounds
  | .text => .upward l.textBase l.textLimit 1024
  | .data => .upward l.dataSegmentBase l.dataSegmentLimit 1024
  | .stack => .downward l.stackLimit l.stackBase 1024
  | .mmio => .upward l.mmioBase l.mmioLimit 16

/-- The place of a word in the table of its segment, computed in words. -/
def wordSlot (l : Layout) (seg : Segment) (a : UInt32) : UInt32 :=
  if seg = .stack then (l.stackBase - (a &&& ~~~3)) >>> 2
  else (a - (l.wordBounds seg).base) >>> 2

variable (l : Layout) {seg : Segment} {a : UInt32}

theorem wordBounds_represents (seg : Segment) :
    (l.wordBounds seg).Represents ((Segments.ofLayout l).bounds seg) := by
  cases seg with
  | text => exact WordBounds.represents_upward (by decide)
  | data => exact WordBounds.represents_upward (by decide)
  | stack =>
    have hlt := l.lowest_lt_ending .stack
    refine WordBounds.represents_downward ?_ (Segments.stackBase_mod l) (by decide) (by decide)
    rw [l.stackBase_toNat]
    exact hlt
  | mmio => exact WordBounds.represents_upward (by decide)

theorem toNat_wordSlot (h : ((Segments.ofLayout l).bounds seg).contains a = true) :
    (l.wordSlot seg a).toNat = (Segments.ofLayout l).slot seg a := by
  have hquarter (x : UInt32) : (x >>> 2).toNat = x.toNat / 4 := by
    rw [UInt32.toNat_shiftRight]
    exact Nat.shiftRight_eq_div_pow _ 2
  by_cases hstack : seg = .stack
  · subst hstack
    have hplace := Segments.slot_downwards h
    have htop : ((Segments.ofLayout l).bounds .stack).stop = l.stackBase.toNat + 4 := rfl
    have hle : wordBase a ≤ l.stackBase := by
      rw [UInt32.le_iff_toNat_le, wordBase_toNat]
      omega
    rw [wordSlot, if_pos rfl, hquarter, ← wordBase_eq_and, UInt32.toNat_sub_of_le _ _ hle,
      wordBase_toNat]
    omega
  · have hplace := Segments.slot_upwards hstack h
    have hmod := Segments.ofLayout_base_mod l seg
    have hbase := (l.wordBounds_represents seg).base
    have hle : (l.wordBounds seg).base ≤ a := by
      rw [UInt32.le_iff_toNat_le, hbase]
      exact (Bounds.contains_iff.mp h).1
    rw [wordSlot, if_neg hstack, hquarter, UInt32.toNat_sub_of_le _ _ hle, hbase]
    omega

end Layout

namespace Segments

/-- A segment is a non-empty interval of whole words below `2 ^ 32`. It is what the layout gives to
it, cut to 1024 blocks, or to 16 of memory-mapped I/O: at the end, or at the start of the stack.
Each address of a segment has a place in its table, which is how many words it is above the first
one, or below the last one of the stack, so two of them share a place exactly if they lie in one
word. Words of 32 and 64 bits are enough to compute all this. All bytes of a word have the same
owner. -/
theorem segments_and_slots_sound (l : Layout) :
    (∀ seg,
      let b := (ofLayout l).bounds seg
      let blocks := (ofLayout l).blocks seg
      b.base % 4 = 0 ∧ b.stop % 4 = 0 ∧ b.base < b.stop ∧ b.stop ≤ 0x100000000 ∧
      b.size = min (l.ending seg - l.lowest seg) (if seg = .mmio then 0x10000 else 0x400000) ∧
      (if seg = .stack then b.stop = l.ending seg else b.base = l.lowest seg) ∧
      l.lowest seg < l.ending seg ∧ 0 < blocks ∧ blocks ≤ (if seg = .mmio then 16 else 1024) ∧
      (l.wordBounds seg).Represents b ∧
      ∀ a, b.contains a = true →
        (if seg = .stack then a.toNat / 4 * 4 + 4 * (ofLayout l).slot seg a + 4 = b.stop
          else b.base + 4 * (ofLayout l).slot seg a = a.toNat / 4 * 4) ∧
        (l.wordSlot seg a).toNat = (ofLayout l).slot seg a ∧
        (ofLayout l).slot seg a < 1024 * blocks ∧
        ∀ a', b.contains a' = true →
          ((ofLayout l).slot seg a = (ofLayout l).slot seg a' ↔ a.toNat / 4 = a'.toNat / 4)) ∧
    ∀ a a', a.toNat / 4 = a'.toNat / 4 → (ofLayout l).owner? a = (ofLayout l).owner? a' := by
  have hroom (seg : Segment) :
      seg.maxBlocks * blockBytes = if seg = .mmio then 0x10000 else 0x400000 := by
    cases seg <;> rfl
  have hmax (seg : Segment) : seg.maxBlocks = if seg = .mmio then 16 else 1024 := by
    cases seg <;> rfl
  refine ⟨fun seg => ?_, fun a a' h => owner?_congr (wordBase_eq_iff.mpr h)⟩
  intro b blocks
  refine ⟨ofLayout_base_mod l seg, ofLayout_stop_mod l seg, ofLayout_base_lt l seg,
    ofLayout_stop_le l seg, ?size, ?part, l.lowest_lt_ending seg, blocks_pos l seg, ?blocks,
    l.wordBounds_represents seg,
    fun a ha => ⟨?place, l.toNat_wordSlot ha, ?bound, fun a' ha' => ?_⟩⟩
  case size =>
    rw [← hroom seg]
    exact size_eq_kept l seg
  case part =>
    by_cases hstack : seg = .stack
    · subst hstack
      exact congrArg Bounds.stop (bounds_stack l)
    · rw [if_neg hstack]
      exact congrArg Bounds.base (bounds_of_ne_stack l hstack)
  case blocks =>
    rw [← hmax seg]
    exact blocks_le l seg
  case place =>
    by_cases hstack : seg = .stack
    · subst hstack
      exact slot_downwards ha
    · rw [if_neg hstack]
      exact slot_upwards hstack ha
  case bound =>
    rw [Nat.mul_comm]
    exact slot_lt ha
  rw [slot_inj ha ha', wordBase_eq_iff]

/-- By default the stack is cut at its start and memory-mapped I/O ends with the address space. -/
theorem default_segments_sound :
    let s := ofLayout Layout.default
    s.bounds .stack = ⟨0x7FBFF000, 0x7FFFF000⟩ ∧ s.blocks .stack = 1024 ∧
      (s.bounds .mmio).stop = 0x100000000 ∧ s.slot .mmio 0xFFFFFFFF < 1024 * s.blocks .mmio ∧
      0x7FBFF000 + 4 * s.slot .stack 0x7FBFF003 + 4 = 0x7FFFF000 ∧
      (s.slot .stack 0x7FBFF003 = s.slot .stack 0x7FBFF004 ↔ 0x7FBFF003 / 4 = 0x7FBFF004 / 4) ∧
      s.owner? 0xFFFFFFFF = s.owner? 0xFFFFFFFC := by
  intro s
  obtain ⟨hsegment, howner⟩ := segments_and_slots_sound Layout.default
  obtain ⟨-, -, -, -, -, -, -, -, -, -, hstack⟩ := hsegment .stack
  obtain ⟨-, -, -, -, -, -, -, -, -, -, hmmio⟩ := hsegment .mmio
  obtain ⟨hplace, -, -, hshared⟩ := hstack 0x7FBFF003 (by decide)
  obtain ⟨-, -, hbound, -⟩ := hmmio 0xFFFFFFFF (by decide)
  exact ⟨rfl, by decide, rfl, hbound, hplace, hshared 0x7FBFF004 (by decide), howner _ _ rfl⟩

end Segments
end ArchState
