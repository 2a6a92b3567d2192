import Lc3Assembler.Program.Store
import Lc3Assembler.Text.Lines

/-!
# Object files

An object file is a list of records: a header, the entry points, the external
names, one record per memory word, and the execution address.  Each is printed
on a line of its own, with numbers in upper-case hexadecimal.
-/

namespace Lc3Assembler

/-- How a linker has to change a word. -/
inductive Relocation where
  /-- Not at all. -/
  | fixed
  /-- Add the load address to a field narrower than a page offset. -/
  | field
  /-- Add the load address to a page offset or a whole word. -/
  | address
  /-- Fill a field of some width with the value of an external symbol. -/
  | external (width : Int) (name : String)
  deriving DecidableEq, Repr

/-- The tag behind a word.  One digit gives the width, so a whole word is
tagged like a field of fifteen bits. -/
def Relocation.tag : Relocation → String
  | .fixed => ""
  | .field => "M0"
  | .address => "M1"
  | .external width name => "X" ++ Text.hexUpper 0 (min width 0xF) ++ name

/-- One record of an object file. -/
inductive ObjectRecord where
  | header (segment : String) (firstAddress length : Int)
  | entry (name : String) (value : Nat) (relocatable : Bool)
  | external (name : String)
  | word (address : Int) (contents : Nat) (relocation : Relocation)
  | start (address : Int)
  deriving DecidableEq, Repr

def ObjectRecord.text : ObjectRecord → String
  | .header segment firstAddress length =>
      "H" ++ Text.left 6 segment ++ Text.hexUpper 4 firstAddress ++ Text.hexUpper 4 length
  | .entry name value relocatable =>
      "N" ++ Text.left 6 name ++ Text.hexUpper 4 value ++ (if relocatable then "R" else "A")
  | .external name => "X" ++ name
  | .word address contents relocation =>
      "T" ++ Text.hexUpper 4 address ++ Text.hexUpper 4 contents ++ relocation.tag
  | .start address => "E" ++ Text.hexUpper 4 address

end Lc3Assembler
