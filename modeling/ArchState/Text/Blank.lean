/-! # Blank characters

The characters of the Unicode property White_Space, and texts without blanks at their ends.
-/
namespace ArchState.Text

def blankRuns : List (Nat × Nat) :=
  [(0x0009, 0x000D), (0x0020, 0x0020), (0x0085, 0x0085), (0x00A0, 0x00A0), (0x1680, 0x1680),
    (0x2000, 0x200A), (0x2028, 0x2029), (0x202F, 0x202F), (0x205F, 0x205F), (0x3000, 0x3000)]

def isBlank (c : Char) : Bool := blankRuns.any fun run => run.1 ≤ c.toNat && c.toNat ≤ run.2

def trim (cs : List Char) : List Char :=
  (((cs.dropWhile isBlank).reverse).dropWhile isBlank).reverse

end ArchState.Text
