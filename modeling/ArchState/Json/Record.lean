import ArchState.Json.Value

/-! # Records in JSON texts

A record is written as an object with the names of its fields or as an array of its fields in
their order. Unknown and repeated fields are refused where they stand.
-/
namespace ArchState.Json

structure Field (σ : Type) where
  name : String
  /-- Whether an array that ends before this field is refused. -/
  required : Bool
  isSet : σ → Bool
  read : σ → Reader σ

namespace Reader
variable {σ α : Type}

def recordEntry (fields : List (Field σ)) (s : Bool × σ) : Reader ((Bool × σ) ⊕ σ) := do
  let (first, collected) := s
  if ← moreKeys first then
    let key ← string
    match fields.find? (·.name == key) with
    | none => fail (.unknownField key (fields.map (·.name)))
    | some f =>
      if f.isSet collected then fail (.duplicateField key)
      else
        colon
        return .inl (false, ← f.read collected)
  else
    skip
    return .inr collected

/-- Reads the fields of an array from the one at `position` on, and the end of the array. -/
def recordItems (expected : String) (size : Nat) :
    List (Field σ) → Nat → σ → Reader σ
  | [], _, collected => do
    match ← next with
    | none => throw .ended
    | some ']' =>
      skip
      return collected
    | some _ => throw .malformed
  | f :: fields, position, collected => do
    if ← moreItems (position = 0) then
      recordItems expected size fields (position + 1) (← f.read collected)
    else
      match (f :: fields).findIdx? (·.required) with
      | some i => fail (.invalidLength (position + i) expected size)
      | none =>
        skip
        return collected

def record (expected : String) (fields : List (Field σ)) (start : σ) : Reader σ := do
  match ← nextOrEnd with
  | '[' =>
    nested do
      skip
      recordItems expected fields.length fields 0 start
  | '{' =>
    nested do
      skip
      iterate (recordEntry fields) (true, start)
  | _ => unexpected expected

def required (name : String) : Option α → Reader α
  | some a => return a
  | none => fail (.missingField name)

def sequence (item : Reader α) : Reader (List α) := do
  match ← nextOrEnd with
  | '[' =>
    nested do
      skip
      iterate (fun (done : List α) => do
        if ← moreItems done.isEmpty then return .inl ((← item) :: done)
        else
          skip
          return .inr done.reverse) []
  | _ => unexpected "a sequence"

def map (item : Reader α) : Reader (List (String × α)) := do
  match ← nextOrEnd with
  | '{' =>
    nested do
      skip
      iterate (fun (done : List (String × α)) => do
        if ← moreKeys done.isEmpty then
          let key ← string
          colon
          return .inl ((key, ← item) :: done)
        else
          skip
          return .inr done.reverse) []
  | _ => unexpected "a map"

def boolean : Reader Bool := do
  match ← nextOrEnd with
  | 't' =>
    exactly ['t', 'r', 'u', 'e']
    return true
  | 'f' =>
    exactly ['f', 'a', 'l', 's', 'e']
    return false
  | _ => unexpected "a boolean"

def text : Reader String := do
  match ← nextOrEnd with
  | '"' => string
  | _ => unexpected "a string"

def optionalText : Reader (Option String) := do
  match ← nextOrEnd with
  | 'n' =>
    exactly ['n', 'u', 'l', 'l']
    return none
  | _ => return some (← text)

def count : Reader Nat := do
  match ← found with
  | .number (.natural n) => return n
  | .number (.negative n) => fail (.invalidValue (.number (.negative n)) "usize")
  | other => fail (.invalidType other "usize")

def run (r : Reader α) (s : String) : Except Error α := do
  let (a, rest) ← r nesting s.toList
  if rest.all isSpace then return a else throw .malformed

end Reader
end ArchState.Json
