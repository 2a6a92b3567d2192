import Lc3Assembler.SourceLine

/-!
# Records, symbols and literals

The pieces of a program: one record per source line that is no comment, one
symbol per defined name, and one literal per pooled word.
-/

namespace Lc3Assembler

/-- A source line with its place in memory.  A record that takes up no storage
has no location. -/
structure Record where
  line : Int
  operation : Operation
  label : Option String
  operands : List Operand
  location : Option Int
  size : Int
  deriving DecidableEq, Repr

namespace Record

def labelText (record : Record) : String :=
  record.label.getD ""

/-- The record on one line of a dump. -/
def text (record : Record) : String :=
  let place :=
    match record.location with
    | some location => "x" ++ Text.hexUpper 4 location
    | none => "  -  "
  let full :=
    Text.decimalRight 4 record.line ++ " (" ++ place ++ "): " ++ Text.left 6 record.labelText
      ++ " " ++ Text.left 5 record.operation.name ++ " " ++ Operand.joined record.operands
  String.ofList (Text.trimEnd full.toList)

end Record

/-- A defined name.  The value is a word; `negative` tells whether it was
written below zero, and `relocatable` whether it is an address that moves with
the segment. -/
structure Symbol where
  name : String
  value : Nat
  relocatable : Bool
  line : Option Int
  negative : Bool
  deriving DecidableEq, Repr

namespace Symbol

/-- The symbol of a value as it was written. -/
def define (name : String) (value : Int) (relocatable : Bool) (line : Option Int) : Symbol :=
  { name, value := wordOf value, relocatable, line, negative := decide (value < 0) }

/-- The value as it was written. -/
def signedValue (symbol : Symbol) : Int :=
  if symbol.negative then symbol.value - wordCount else symbol.value

theorem value_define_lt (name : String) (value : Int) (relocatable : Bool) (line : Option Int) :
    (define name value relocatable line).value < 0x10000 :=
  wordOf_lt value

end Symbol

/-- A pooled word and its address. -/
structure Literal where
  word : Nat
  address : Int
  deriving DecidableEq, Repr

namespace Literal

/-- The address of a literal that is not placed yet. -/
def unplaced : Int := -1

def isPlaced (literal : Literal) : Bool :=
  literal.address != unplaced

end Literal

/-- A name that a directive declares, with the line of its first
declaration. -/
structure Declaration where
  name : String
  line : Option Int
  deriving DecidableEq, Repr

end Lc3Assembler
