import Lc3Assembler.Program.Record

/-!
# The program store

A program collects records, symbols, literals and declared names while a
source is read, and is then frozen.  Every table keeps the order in which its
entries came, only grows, and holds a key at most once.  An operation that
fails leaves no changed program behind.
-/

namespace Lc3Assembler

/-- One assembly unit. -/
structure Program where
  segment : String := ""
  relocatable : Bool := false
  firstAddress : Int := 0
  length : Int := 0
  execAddress : Int := 0
  records : List Record := []
  symbols : List Symbol := []
  literals : List Literal := []
  entries : List Declaration := []
  externals : List Declaration := []
  frozen : Bool := false
  deriving DecidableEq, Repr

namespace Program

/-- Go on only while the program may change. -/
def ifOpen (program : Program) (change : Except Failure α) : Except Failure α :=
  if program.frozen then .error (.misuse .frozen) else change

def addRecord (program : Program) (record : Record) : Except Failure Program :=
  program.ifOpen (.ok { program with records := program.records ++ [record] })

def symbol? (program : Program) (name : String) : Option Symbol :=
  program.symbols.find? fun symbol => symbol.name == name

def hasSymbol (program : Program) (name : String) : Bool :=
  (program.symbol? name).isSome

/-- The symbol of a name that has to be defined. -/
def requireSymbol (program : Program) (name : String) : Except Failure Symbol :=
  match program.symbol? name with
  | some symbol => .ok symbol
  | none => .error (.misuse (.noSuchName name))

/-- Define a name that is not defined yet. -/
def defineSymbol (program : Program) (name : String) (value : Int) (relocatable : Bool)
    (line : Option Int) : Except Failure Program :=
  program.ifOpen <|
    match program.symbol? name with
    | some first => .error (.rejected { cause := .duplicateSymbol name first.line, line })
    | none =>
        let symbol := Symbol.define name value relocatable line
        .ok { program with symbols := program.symbols ++ [symbol] }

/-- Add a name unless it is there. -/
def declare (declarations : List Declaration) (name : String) (line : Option Int) :
    List Declaration :=
  if declarations.any fun declaration => declaration.name == name then declarations
  else declarations ++ [{ name := name, line := line }]

/-- Declare a name that other segments may use. -/
def addEntry (program : Program) (name : String) (line : Option Int) : Except Failure Program :=
  program.ifOpen (.ok { program with entries := declare program.entries name line })

/-- Declare a name that another segment defines. -/
def addExternal (program : Program) (name : String) (line : Option Int) :
    Except Failure Program :=
  program.ifOpen (.ok { program with externals := declare program.externals name line })

def isEntry (program : Program) (name : String) : Bool :=
  program.entries.any fun declaration => declaration.name == name

def isExternal (program : Program) (name : String) : Bool :=
  program.externals.any fun declaration => declaration.name == name

/-- The pool entry of a value, found by its word. -/
def literal? (program : Program) (value : Int) : Option Literal :=
  program.literals.find? fun literal => literal.word == wordOf value

def hasLiteral (program : Program) (value : Int) : Bool :=
  (program.literal? value).isSome

/-- Pool a value unless its word is there; tells whether it is new. -/
def addLiteral (program : Program) (value : Int) : Except Failure (Program × Bool) :=
  program.ifOpen <|
    if program.hasLiteral value then .ok (program, false)
    else
      let literal : Literal := { word := wordOf value, address := Literal.unplaced }
      .ok ({ program with literals := program.literals ++ [literal] }, true)

def literalAddress (program : Program) (value : Int) : Except Failure Int :=
  match program.literal? value with
  | some literal => .ok literal.address
  | none => .error (.misuse (.noSuchLiteral (wordOf value)))

def literalsPlaced (program : Program) : Bool :=
  program.literals.any Literal.isPlaced

/-- Give literals the addresses from `start` on, in order. -/
def placeFrom (start : Int) : List Literal → List Literal
  | [] => []
  | literal :: rest => { literal with address := start } :: placeFrom (start + 1) rest

/-- Place the pool; gives the first address after it.  No word may be placed
at the highest address. -/
def placeLiterals (program : Program) (start : Int) : Except Failure (Program × Int) :=
  program.ifOpen <|
    if program.literalsPlaced then .error (.misuse .literalsPlaced)
    else
      let after := start + program.literals.length
      if program.literals ≠ [] ∧ maxAddress < after then
        .error (.rejected { cause := .poolOverflow start, line := none })
      else .ok ({ program with literals := placeFrom start program.literals }, after)

/-- The first entry that nothing defines. -/
def undefinedEntry? (program : Program) : Option Declaration :=
  program.entries.find? fun declaration => !program.hasSymbol declaration.name

/-- The first external name that is also defined here, with its symbol. -/
def definedExternal? (program : Program) : Option (Declaration × Symbol) :=
  program.externals.findSome? fun declaration =>
    (program.symbol? declaration.name).map fun symbol => (declaration, symbol)

/-- Check the segment and close the program against changes. -/
def freeze (program : Program) : Except Failure Program :=
  if program.frozen then .ok program
  else
    match program.undefinedEntry?, program.definedExternal? with
    | some entry, _ =>
        .error (.rejected
          { cause :=
              .undefinedSymbol entry.name (some ".ENT names a symbol that is never defined")
            line := entry.line })
    | none, some (external, symbol) =>
        .error (.rejected
          { cause := .duplicateSymbol external.name symbol.line, line := external.line })
    | none, none =>
        if program.firstAddress < 0 ∨ maxAddress < program.firstAddress then
          .error (.rejected { cause := .firstAddress program.firstAddress, line := none })
        else if program.execAddress < program.firstAddress ∨ maxAddress < program.execAddress then
          .error (.rejected
            { cause := .execAddress program.execAddress program.firstAddress, line := none })
        else .ok { program with frozen := true }

@[simp] theorem length_placeFrom (start : Int) (literals : List Literal) :
    (placeFrom start literals).length = literals.length := by
  induction literals generalizing start with
  | nil => rfl
  | cons literal rest induction => simp [placeFrom, induction]

@[simp] theorem map_word_placeFrom (start : Int) (literals : List Literal) :
    (placeFrom start literals).map Literal.word = literals.map Literal.word := by
  induction literals generalizing start with
  | nil => rfl
  | cons literal rest induction => simp [placeFrom, induction]

end Program

end Lc3Assembler
