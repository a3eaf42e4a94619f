import ArchState.Layout.Catalog
import ArchState.Settings.Layouts

/-! # Settings of a machine

What a machine is built from: general switches, the layouts beside the built-in ones and the
one to start with, and the number of harts. Every setting has a default.
-/
namespace ArchState

structure GeneralSettings where
  startAtMain : Bool := false
  /-- Whether programs can read and write their text. -/
  selfModifying : Bool := false
  backstep : Bool := false
  /-- The number of undo records that are kept. -/
  backstepLimit : Nat := 2000

structure MemorySettings where
  configuration : String := "Default"
  layouts : List Layout := []

structure ReservationSettings where
  harts : Nat := 1

structure Settings where
  general : GeneralSettings := {}
  memory : MemorySettings := {}
  reservations : ReservationSettings := {}

inductive SetupError where
  | layout (e : LayoutError)
  | noHarts
  | json (e : Json.Error)
  | unreadable (path reason : String)

/-- The text of an error. The place of an error in a JSON text is not part of it. -/
def SetupError.message : SetupError → String
  | layout e => e.message
  | noHarts => "at least one hart is required"
  | json (.mismatch m) => m.message
  | json e => e.category
  | unreadable path reason => "cannot read " ++ path ++ ": " ++ reason

namespace Json

structure GeneralFields where
  startAtMain : Option Bool := none
  selfModifying : Option Bool := none
  backstep : Option Bool := none
  backstepLimit : Option Nat := none

structure MemoryFields where
  configuration : Option String := none
  layouts : Option (List Layout) := none

structure ReservationFields where
  harts : Option Nat := none

structure SettingsFields where
  general : Option GeneralSettings := none
  memory : Option MemorySettings := none
  reservations : Option ReservationSettings := none

namespace Reader

def generalFields : List (Field GeneralFields) :=
  [{ name := "start_at_main", required := false, isSet := fun f => f.startAtMain.isSome
     read := fun f => return { f with startAtMain := some (← boolean) } },
   { name := "self_modifying_code", required := false, isSet := fun f => f.selfModifying.isSome
     read := fun f => return { f with selfModifying := some (← boolean) } },
   { name := "backstep", required := false, isSet := fun f => f.backstep.isSome
     read := fun f => return { f with backstep := some (← boolean) } },
   { name := "backstep_limit", required := false, isSet := fun f => f.backstepLimit.isSome
     read := fun f => return { f with backstepLimit := some (← count) } }]

def general : Reader GeneralSettings := do
  let f ← record "struct GeneralConfig" generalFields {}
  let defaults : GeneralSettings := {}
  return {
    startAtMain := f.startAtMain.getD defaults.startAtMain
    selfModifying := f.selfModifying.getD defaults.selfModifying
    backstep := f.backstep.getD defaults.backstep
    backstepLimit := f.backstepLimit.getD defaults.backstepLimit }

def memoryFields : List (Field MemoryFields) :=
  [{ name := "configuration", required := false, isSet := fun f => f.configuration.isSome
     read := fun f => return { f with configuration := some (← text) } },
   { name := "layouts", required := false, isSet := fun f => f.layouts.isSome
     read := fun f => return { f with layouts := some (← sequence layout) } }]

def memory : Reader MemorySettings := do
  let f ← record "struct MemoryConfig" memoryFields {}
  let defaults : MemorySettings := {}
  return {
    configuration := f.configuration.getD defaults.configuration
    layouts := f.layouts.getD defaults.layouts }

def reservationFields : List (Field ReservationFields) :=
  [{ name := "harts", required := false, isSet := fun f => f.harts.isSome
     read := fun f => return { f with harts := some (← count) } }]

def reservations : Reader ReservationSettings := do
  let f ← record "struct ReservationConfig" reservationFields {}
  let defaults : ReservationSettings := {}
  return { harts := f.harts.getD defaults.harts }

def settingsFields : List (Field SettingsFields) :=
  [{ name := "general", required := false, isSet := fun f => f.general.isSome
     read := fun f => return { f with general := some (← general) } },
   { name := "memory", required := false, isSet := fun f => f.memory.isSome
     read := fun f => return { f with memory := some (← memory) } },
   { name := "reservations", required := false, isSet := fun f => f.reservations.isSome
     read := fun f => return { f with reservations := some (← reservations) } }]

def settings : Reader Settings := do
  let f ← record "struct Config" settingsFields {}
  let defaults : Settings := {}
  return {
    general := f.general.getD defaults.general
    memory := f.memory.getD defaults.memory
    reservations := f.reservations.getD defaults.reservations }

end Reader
end Json

def Range.ofJson (json : String) : Except SetupError Range :=
  (Json.Reader.range.run json).mapError .json

def Layout.ofJson (json : String) : Except SetupError Layout :=
  (Json.Reader.layout.run json).mapError .json

def Catalog.registerJson (c : Catalog) (json : String) : Except SetupError (Layout × Catalog) := do
  let l ← Layout.ofJson json
  let c ← (c.register l).mapError .layout
  return (l, c)

def Settings.ofJson (json : String) : Except SetupError Settings := do
  let s ← (Json.Reader.settings.run json).mapError .json
  if s.reservations.harts = 0 then .error .noHarts else .ok s

/-- The settings in a file whose contents, or why there are none, are given. -/
def Settings.ofFile (path : String) (contents : Except String ByteArray) :
    Except SetupError Settings :=
  match contents with
  | .error reason => .error (.unreadable path reason)
  | .ok bytes =>
    match String.fromUTF8? bytes with
    | none => .error (.unreadable path "stream did not contain valid UTF-8")
    | some text => Settings.ofJson text

end ArchState
