import ArchState.Json.Record
import ArchState.Layout.Draft

/-! # Layouts in JSON texts

A range is a record of two literals, a layout a record of an identifier, a name, an object of
sections and two literals. A draft is resolved as soon as its record ends, and a draft that
does not resolve is refused there.
-/
namespace ArchState.Json

namespace Reader

def accept {α : Type} : Except LayoutError α → Reader α
  | .ok a => return a
  | .error e => fail (.rejected e.message)

def literal : Reader AddressLiteral := do
  match ← value with
  | .number (.natural n) =>
    if n < 0x100000000 then return .number (UInt32.ofNat n) else fail (.noVariant "AddressLiteral")
  | .text s => return .text s
  | _ => fail (.noVariant "AddressLiteral")

end Reader

structure RangeFields where
  low : Option AddressLiteral := none
  high : Option AddressLiteral := none

structure LayoutFields (ρ : Type) where
  identifier : Option String := none
  name : Option (Option String) := none
  sections : Option (List (String × ρ)) := none
  gpOffset : Option AddressLiteral := none
  externSize : Option AddressLiteral := none

namespace Reader
variable {ρ : Type}

def rangeFields : List (Field RangeFields) :=
  [{ name := "low", required := true, isSet := fun f => f.low.isSome
     read := fun f => return { f with low := some (← literal) } },
   { name := "high", required := true, isSet := fun f => f.high.isSome
     read := fun f => return { f with high := some (← literal) } }]

def rangeDraft : Reader RangeDraft := do
  let f ← record "struct RawRange" rangeFields {}
  let low ← required "low" f.low
  let high ← required "high" f.high
  return ⟨low, high⟩

def range : Reader Range := do accept (← rangeDraft).resolve

def layoutFields (range : Reader ρ) : List (Field (LayoutFields ρ)) :=
  [{ name := "identifier", required := true, isSet := fun f => f.identifier.isSome
     read := fun f => return { f with identifier := some (← text) } },
   { name := "name", required := false, isSet := fun f => f.name.isSome
     read := fun f => return { f with name := some (← optionalText) } },
   { name := "sections", required := true, isSet := fun f => f.sections.isSome
     read := fun f => return { f with sections := some (← map range) } },
   { name := "gp_offset", required := true, isSet := fun f => f.gpOffset.isSome
     read := fun f => return { f with gpOffset := some (← literal) } },
   { name := "extern_size", required := true, isSet := fun f => f.externSize.isSome
     read := fun f => return { f with externSize := some (← literal) } }]

def layoutDraft (range : Reader ρ) : Reader (LayoutDraft ρ) := do
  let f ← record "struct RawConfiguration" (layoutFields range) {}
  let identifier ← required "identifier" f.identifier
  let sections ← required "sections" f.sections
  let gpOffset ← required "gp_offset" f.gpOffset
  let externSize ← required "extern_size" f.externSize
  return ⟨identifier, f.name.getD none, sections, gpOffset, externSize⟩

def layout : Reader Layout := do accept (← layoutDraft range).resolve

end Reader
end ArchState.Json
