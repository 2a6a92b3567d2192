import Lc3Assembler.Program.Store

/-!
# Calls that change a program in place

The store can also be used as one program that a sequence of calls changes in
place.  `Program.Change` is a computation of that kind: what it has changed
before it fails stays changed.  Each call makes its checks and its changes one
after the other, so it is a fact about their order, and not about the way
results are passed on, that a failed call leaves the program as it was.
-/

namespace Lc3Assembler

/-- A computation that changes a program in place. -/
abbrev Program.Change := EStateM Failure Program

namespace Program.Change

/-- Stop unless the program may change. -/
def requireOpen : Change Unit := do
  if (← get).frozen then throw (.misuse .frozen)

def addRecord (record : Record) : Change Unit := do
  requireOpen
  modify fun program => { program with records := program.records ++ [record] }

/-- Define a name that is not defined yet; gives its symbol. -/
def defineSymbol (name : String) (value : Int) (relocatable : Bool) (line : Option Int) :
    Change Symbol := do
  requireOpen
  match (← get).symbol? name with
  | some first => throw (.rejected { cause := .duplicateSymbol name first.line, line })
  | none =>
      let symbol := Symbol.define name value relocatable line
      modify fun program => { program with symbols := program.symbols ++ [symbol] }
      return symbol

def addEntry (name : String) (line : Option Int) : Change Unit := do
  requireOpen
  modify fun program => { program with entries := declare program.entries name line }

def addExternal (name : String) (line : Option Int) : Change Unit := do
  requireOpen
  modify fun program => { program with externals := declare program.externals name line }

/-- Pool a value unless its word is there; tells whether it is new. -/
def addLiteral (value : Int) : Change Bool := do
  requireOpen
  if (← get).hasLiteral value then return false
  let literal : Literal := { word := wordOf value, address := Literal.unplaced }
  modify fun program => { program with literals := program.literals ++ [literal] }
  return true

/-- Give `count` literals, from the one at `index` on, the addresses from `address`
on, one literal after the other. -/
def placeEach : Nat → Nat → Int → Change Unit
  | _, 0, _ => return ()
  | index, count + 1, address => do
      modify fun program =>
        { program with
          literals := program.literals.modify index fun literal => { literal with address } }
      placeEach (index + 1) count (address + 1)

/-- Place the pool; gives the first address after it. -/
def placeLiterals (start : Int) : Change Int := do
  requireOpen
  if (← get).literalsPlaced then throw (.misuse .literalsPlaced)
  let count := (← get).literals.length
  if count ≠ 0 ∧ maxAddress < start + count then
    throw (.rejected { cause := .poolOverflow start, line := none })
  placeEach 0 count start
  return start + count

/-- Every entry has to be defined. -/
def checkEntries : List Declaration → Change Unit
  | [] => return ()
  | entry :: rest => do
      if !(← get).hasSymbol entry.name then
        throw (.rejected
          { cause := .undefinedSymbol entry.name (some ".ENT names a symbol that is never defined")
            line := entry.line })
      checkEntries rest

/-- No external name may be defined here. -/
def checkExternals : List Declaration → Change Unit
  | [] => return ()
  | external :: rest => do
      match (← get).symbol? external.name with
      | some symbol =>
          throw (.rejected
            { cause := .duplicateSymbol external.name symbol.line, line := external.line })
      | none => checkExternals rest

/-- Both addresses of the segment have to lie in memory, in this order. -/
def checkAddresses : Change Unit := do
  let program ← get
  if program.firstAddress < 0 ∨ maxAddress < program.firstAddress then
    throw (.rejected { cause := .firstAddress program.firstAddress, line := none })
  if program.execAddress < program.firstAddress ∨ maxAddress < program.execAddress then
    throw (.rejected
      { cause := .execAddress program.execAddress program.firstAddress, line := none })

/-- Check the segment and close the program against changes. -/
def freeze : Change Unit := do
  if (← get).frozen then return ()
  checkEntries (← get).entries
  checkExternals (← get).externals
  checkAddresses
  modify fun program => { program with frozen := true }

end Program.Change

namespace Program

/-- A call that may change a program. -/
inductive Call where
  | addRecord (record : Record)
  | defineSymbol (name : String) (value : Int) (relocatable : Bool) (line : Option Int)
  | addEntry (name : String) (line : Option Int)
  | addExternal (name : String) (line : Option Int)
  | addLiteral (value : Int)
  | placeLiterals (start : Int)
  | freeze
  deriving DecidableEq, Repr

/-- What a call gives back. -/
inductive Answer where
  | done
  | symbol (symbol : Symbol)
  | isNew (new : Bool)
  | address (after : Int)
  deriving DecidableEq, Repr

/-- What a call does to the program. -/
def Call.change : Call → Change Answer
  | .addRecord record => do
      Change.addRecord record
      return .done
  | .defineSymbol name value relocatable line => do
      return .symbol (← Change.defineSymbol name value relocatable line)
  | .addEntry name line => do
      Change.addEntry name line
      return .done
  | .addExternal name line => do
      Change.addExternal name line
      return .done
  | .addLiteral value => do
      return .isNew (← Change.addLiteral value)
  | .placeLiterals start => do
      return .address (← Change.placeLiterals start)
  | .freeze => do
      Change.freeze
      return .done

/-- Make a call; gives the program as the call leaves it, and its answer. -/
def perform (program : Program) (call : Call) : Program × Except Failure Answer :=
  match call.change.run program with
  | .ok answer next => (next, .ok answer)
  | .error failure next => (next, .error failure)

/-- The program after some calls, whatever they answered. -/
def performAll (program : Program) (calls : List Call) : Program :=
  calls.foldl (fun current call => (current.perform call).1) program

/-- The program that some calls make of an empty one. -/
def ofCalls (calls : List Call) : Program :=
  performAll {} calls

end Program

end Lc3Assembler
