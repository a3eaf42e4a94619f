/-! # Symbol tables

A symbol table answers the address of a global label. Anything that answers so will do.
-/
namespace ArchState

abbrev Symbols := String → Option UInt32

namespace Symbols

def startLabel : String := "main"

/-- A table of label and address pairs; the last pair of a label counts. -/
def ofList (table : List (String × UInt32)) : Symbols := fun label =>
  (table.reverse.find? (·.1 == label)).map (·.2)

end Symbols
end ArchState
