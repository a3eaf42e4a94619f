import ArchState.Layout.Basic

/-! # Built-in layouts

The default layout spreads over the whole address space; the two compact ones keep all
sections in the lowest 32 KiB and differ in what stands at address zero.
-/
namespace ArchState.Layout

def default : Layout where
  identifier := "Default"
  name := "Default"
  sections :=
    { text := ⟨0x00400000, 0x0FFFFFFC, by decide⟩
      data := ⟨0x10000000, 0x1003FFFF, by decide⟩
      heap := ⟨0x10040000, 0x3FFFFFFF, by decide⟩
      stack := ⟨0x40000000, 0x7FFFEFFC, by decide⟩
      mmio := ⟨0xFFFF0000, 0xFFFFFFFF, by decide⟩ }
  gpOffset := 0x8000
  externSize := 0x10000
  aligned := fun s => by cases s <;> decide
  gp_le := by decide
  extern_le := by decide

def compactDataAtZero : Layout where
  identifier := "CompactDataAtZero"
  name := "Compact, Data at Address 0"
  sections :=
    { text := ⟨0x3000, 0x3FFC, by decide⟩
      data := ⟨0x0000, 0x0FFF, by decide⟩
      heap := ⟨0x1000, 0x1FFF, by decide⟩
      stack := ⟨0x2000, 0x2FFC, by decide⟩
      mmio := ⟨0x7F00, 0x7FFF, by decide⟩ }
  gpOffset := 0x800
  externSize := 0x100
  aligned := fun s => by cases s <;> decide
  gp_le := by decide
  extern_le := by decide

def compactTextAtZero : Layout where
  identifier := "CompactTextAtZero"
  name := "Compact, Text at Address 0"
  sections :=
    { text := ⟨0x0000, 0x0FFC, by decide⟩
      data := ⟨0x1000, 0x1FFF, by decide⟩
      heap := ⟨0x2000, 0x2FFF, by decide⟩
      stack := ⟨0x3000, 0x3FFC, by decide⟩
      mmio := ⟨0x7F00, 0x7FFF, by decide⟩ }
  gpOffset := 0x800
  externSize := 0x100
  aligned := fun s => by cases s <;> decide
  gp_le := by decide
  extern_le := by decide

def builtin : List Layout := [default, compactDataAtZero, compactTextAtZero]

end ArchState.Layout
