import ArchState.Json.Error
import ArchState.Text.Numeral

/-! # Reading JSON texts

A reader takes what it needs from the front of a text and fails at the first thing that is
wrong. It knows how many arrays and objects may still be opened inside each other. Loops are
bounded by the length of the text that is left, since each round takes a character.
-/
namespace ArchState.Json

abbrev Reader := ReaderT Nat (StateT (List Char) (Except Error))

namespace Reader
variable {α σ : Type}

/-- One less than the number of arrays and objects that may stand inside each other. -/
def nesting : Nat := 128

def fail (m : Mismatch) : Reader α := throw (.mismatch m)

def isSpace (c : Char) : Bool := c == ' ' || c == '\n' || c == '\t' || c == '\r'

def peek : Reader (Option Char) := return (← get).head?

def skip : Reader Unit := modify List.tail

def next : Reader (Option Char) := do
  modify (·.dropWhile isSpace)
  peek

def nextOrEnd : Reader Char := do
  match ← next with
  | some c => return c
  | none => throw .ended

def exactly : List Char → Reader Unit
  | [] => return ()
  | c :: cs => do
    match ← get with
    | [] => throw .ended
    | d :: rest =>
      if d = c then
        set rest
        exactly cs
      else throw .malformed

/-- Repeats `round` on a state until it answers a result. -/
def loop (round : σ → Reader (σ ⊕ α)) : Nat → σ → Reader α
  | 0, _ => throw .malformed
  | fuel + 1, s => do
    match ← round s with
    | .inl s => loop round fuel s
    | .inr a => return a

/-- Repeats `round`, which takes at least one character unless it is the last one. -/
def iterate (round : σ → Reader (σ ⊕ α)) (s : σ) : Reader α := do
  loop round ((← get).length + 1) s

def nested (inside : Reader α) : Reader α := fun depth =>
  if depth ≤ 1 then throw .malformed else inside (depth - 1)

def digits : Reader (List Char) := do
  let cs ← get
  set (cs.dropWhile Char.isDigit)
  return cs.takeWhile Char.isDigit

def hexEscape : Reader Nat := do
  let cs ← get
  match cs with
  | a :: b :: c :: d :: rest =>
    if [a, b, c, d].all Text.isHexDigit then
      set rest
      return Text.numeralValue 16 [a, b, c, d]
    else throw .malformed
  | few => if (String.ofList few).utf8ByteSize < 4 then throw .ended else throw .malformed

def require (c : Char) : Reader Unit := do
  match ← peek with
  | none => throw .ended
  | some d => if d = c then skip else throw .malformed

/-- Reads the character of a numeric escape. A character beyond the sixteen-bit range is
written as two halves, the higher one first. -/
def codePoint : Reader Char := do
  let high ← hexEscape
  if 0xDC00 ≤ high ∧ high ≤ 0xDFFF then throw .malformed
  else if 0xD800 ≤ high ∧ high ≤ 0xDBFF then
    require '\\'
    require 'u'
    let low ← hexEscape
    if 0xDC00 ≤ low ∧ low ≤ 0xDFFF then
      return Char.ofNat (0x10000 + (high - 0xD800) * 0x400 + (low - 0xDC00))
    else throw .malformed
  else return Char.ofNat high

def escaped : Reader Char := do
  match ← peek with
  | none => throw .ended
  | some c =>
    skip
    match c with
    | '"' => return '"'
    | '\\' => return '\\'
    | '/' => return '/'
    | 'b' => return '\x08'
    | 'f' => return '\x0c'
    | 'n' => return '\n'
    | 'r' => return '\r'
    | 't' => return '\t'
    | 'u' => codePoint
    | _ => throw .malformed

def stringStep (done : List Char) : Reader (List Char ⊕ String) := do
  match ← peek with
  | none => throw .ended
  | some '"' =>
    skip
    return .inr (String.ofList done.reverse)
  | some '\\' =>
    skip
    return .inl ((← escaped) :: done)
  | some c =>
    if c.toNat < 0x20 then throw .malformed
    skip
    return .inl (c :: done)

def string : Reader String := do
  skip
  iterate stringStep []

end Reader
end ArchState.Json
