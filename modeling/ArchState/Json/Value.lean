import ArchState.Json.Numeric

/-! # Values of JSON texts

Any value can be read without an expectation. Only numbers and strings are kept; what an array
or an object holds is read to see that it is well formed and is then forgotten.
-/
namespace ArchState.Json

inductive Value where
  | null
  | boolean (b : Bool)
  | number (n : Number)
  | text (s : String)
  | sequence
  | map

namespace Reader

/-- Whether an array has another item, which is then what comes next. -/
def moreItems (first : Bool) : Reader Bool := do
  match ← next with
  | none => throw .ended
  | some ']' => return false
  | some c =>
    if first then return true
    else if c = ',' then
      skip
      if (← nextOrEnd) = ']' then throw .malformed else return true
    else throw .malformed

def moreKeys (first : Bool) : Reader Bool := do
  match ← next with
  | none => throw .ended
  | some '}' => return false
  | some c =>
    if first then
      if c = '"' then return true else throw .malformed
    else if c = ',' then
      skip
      if (← nextOrEnd) = '"' then return true else throw .malformed
    else throw .malformed

def colon : Reader Unit := do
  match ← next with
  | none => throw .ended
  | some ':' => skip
  | some _ => throw .malformed

mutual

def valueWithin : Nat → Reader Value
  | 0 => throw .malformed
  | fuel + 1 => do
    match ← nextOrEnd with
    | 'n' =>
      exactly ['n', 'u', 'l', 'l']
      return .null
    | 't' =>
      exactly ['t', 'r', 'u', 'e']
      return .boolean true
    | 'f' =>
      exactly ['f', 'a', 'l', 's', 'e']
      return .boolean false
    | '"' => return .text (← string)
    | '[' =>
      nested do
        skip
        itemsWithin fuel true
      return .sequence
    | '{' =>
      nested do
        skip
        entriesWithin fuel true
      return .map
    | c => if c = '-' ∨ c.isDigit then return .number (← number) else throw .malformed

def itemsWithin : Nat → Bool → Reader Unit
  | 0, _ => throw .malformed
  | fuel + 1, first => do
    if ← moreItems first then
      let _ ← valueWithin fuel
      itemsWithin fuel false
    else skip

def entriesWithin : Nat → Bool → Reader Unit
  | 0, _ => throw .malformed
  | fuel + 1, first => do
    if ← moreKeys first then
      let _ ← string
      colon
      let _ ← valueWithin fuel
      entriesWithin fuel false
    else skip

end

/-- Reads any value; each step goes at least one character on. -/
def value : Reader Value := do valueWithin (2 * (← get).length + 2)

/-- What comes next where something else is expected. Arrays and objects are not looked into. -/
def found : Reader Found := do
  match ← nextOrEnd with
  | '[' => return .sequence
  | '{' => return .map
  | _ =>
    match ← value with
    | .null => return .null
    | .boolean b => return .boolean b
    | .number n => return .number n
    | .text s => return .text s
    | .sequence => return .sequence
    | .map => return .map

def unexpected {α : Type} (expected : String) : Reader α := do
  fail (.invalidType (← found) expected)

end Reader
end ArchState.Json
