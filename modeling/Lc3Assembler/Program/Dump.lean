import Lc3Assembler.Program.Store
import Lc3Assembler.Text.Lines

/-!
# Program dumps

A dump shows a resolved program as text: the segment, the declared names, both
tables and the records.
-/

namespace Lc3Assembler.Program

/-- A truth value as it stands in a dump. -/
def boolText (value : Bool) : String :=
  if value then "true" else "false"

/-- A heading between blank lines. -/
def heading (title : String) : List String :=
  ["", "# " ++ title ++ " #", ""]

def symbolRow (symbol : Symbol) : String :=
  Text.left 6 symbol.name ++ " 0x" ++ Text.hexLower 4 symbol.value ++ " "
    ++ boolText symbol.relocatable

/-- A row of the literal table; an unplaced literal has no address to show. -/
def literalRow (literal : Literal) : String :=
  Text.hexLower 4 literal.word ++ " "
    ++ (if literal.isPlaced then Text.hexLower 4 literal.address else "----")

def dumpLines (program : Program) : List String :=
  ["segmentName   = '" ++ program.segment ++ "'",
   "isRelocatable = " ++ boolText program.relocatable,
   "firstAddress  = 0x" ++ Text.hexLower 4 program.firstAddress,
   "length        = 0x" ++ Text.hexLower 4 program.length,
   "execAddress   = 0x" ++ Text.hexLower 4 program.execAddress]
    ++ heading "EXTERNAL SYMBOLS" ++ program.externals.map Declaration.name
    ++ heading "ENTRY POINTS" ++ program.entries.map Declaration.name
    ++ heading "SYMBOL TABLE" ++ program.symbols.map symbolRow
    ++ heading "LITERAL TABLE" ++ program.literals.map literalRow
    ++ heading "PROGRAM" ++ program.records.map Record.text

def dump (program : Program) : String :=
  Text.unlines program.dumpLines

end Lc3Assembler.Program
