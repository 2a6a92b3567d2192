import Lc3Assembler.Program.Store
import Lc3Assembler.Source
import Lc3Assembler.Trace

/-!
# Reading a program

The lines of a source are read once, from the first record to the one that
ends the segment.  A draft is the program so far together with the location
counter.  Each record is checked, its label defined, its literals pooled and
its storage counted; the last record places the literal pool behind the
storage and freezes the program.
-/

namespace Lc3Assembler

/-- A program that is being read. -/
structure Draft where
  program : Program := {}
  location : Int := 0
  started : Bool := false
  deriving DecidableEq, Repr

/-- The state after a record: more to read, or a closed program. -/
inductive Progress where
  | more (draft : Draft)
  | done (program : Program)
  deriving DecidableEq, Repr

namespace Draft

/-- An operand has to be of a kind that its place takes, and only the second
operand of a load may be a literal. -/
def checkOperand (line : SourceLine) (index : Nat) (operand : Operand) (allowed : Bool)
    (expected : List String) : Except Failure Unit :=
  if !allowed then
    .error (.reject line.number
      (.operandKind operand.kind operand.text index line.operation.name expected))
  else if operand.kind = .literal ∧ ¬(line.operation = .instruction .ld ∧ index = 1) then
    .error (.reject line.number (.literalPlace operand.text))
  else .ok ()

/-- Each operand of an instruction against its slot. -/
def checkSlots (line : SourceLine) : Nat → List Slot → List Operand → Except Failure Unit
  | index, slot :: slots, operand :: operands => do
      checkOperand line index operand (slot.allows operand.kind) slot.expected
      checkSlots line (index + 1) slots operands
  | _, _, _ => .ok ()

/-- Each operand of a directive against its kinds. -/
def checkKinds (line : SourceLine) (directive : Directive) :
    Nat → List Operand → Except Failure Unit
  | index, operand :: operands => do
      checkOperand line index operand (directive.allows operand.kind) directive.expected
      checkKinds line directive (index + 1) operands
  | _, [] => .ok ()

/-- The number of operands an operation takes. -/
def checkCount (line : SourceLine) (arity : Nat × Nat) : Except Failure Unit :=
  let count := line.operands.length
  if arity.1 ≤ count ∧ count ≤ arity.2 then .ok ()
  else
    .error (.reject line.number
      (.operandCount line.operation.name arity.1 arity.2 count))

/-- The first record opens the segment, and no other does. -/
def checkOrder (draft : Draft) (line : SourceLine) : Except Failure Unit :=
  let opens := line.operation = .directive .orig
  if !draft.started && !opens then
    .error (.reject line.number (.origExpected line.operation.name))
  else if draft.started && opens then .error (.reject line.number .extraOrig)
  else .ok ()

/-- Define a label.  A full table drops a new name with a warning. -/
def define (limits : Limits) (draft : Draft) (line : SourceLine) (value : Int)
    (relocatable : Bool) : Traced Draft :=
  match line.label with
  | none => pure draft
  | some name =>
      if !draft.program.hasSymbol name && limits.maxSymbols ≤ draft.program.symbols.length then do
        Traced.note (.warned (.symbolTableFull limits.maxSymbols name line.number))
        return draft
      else do
        let program ← Traced.lift
          (draft.program.defineSymbol name value relocatable (some line.number))
        Traced.note (.symbolDefined line.number name value)
        return { draft with program }

/-- Define a label as the current location, which moves with the segment. -/
def defineHere (limits : Limits) (draft : Draft) (line : SourceLine) : Traced Draft :=
  draft.define limits line draft.location draft.program.relocatable

/-- Pool the value of a literal.  A full pool drops a new value with a
warning. -/
def pool (limits : Limits) (number : Int) (program : Program) (operand : Operand) :
    Traced Program :=
  match operand.form with
  | .literal _ value =>
      if !fitsWord value then Traced.fail (.reject number (.wordOverflow operand.text))
      else if program.hasLiteral value then pure program
      else if limits.maxLiterals ≤ program.literals.length then do
        Traced.note (.warned (.literalPoolFull limits.maxLiterals operand.text number))
        return program
      else do
        let (pooled, _) ← Traced.lift (program.addLiteral value)
        Traced.note (.literalPooled number operand.text)
        return pooled
  | _ => pure program

/-- Pool the literals among the operands, in order. -/
def poolAll (limits : Limits) (number : Int) : Program → List Operand → Traced Program
  | program, [] => pure program
  | program, operand :: operands => do
      let pooled ← pool limits number program operand
      poolAll limits number pooled operands

/-- Append a record that occupies `size` words.  The location counter itself
stays inside memory, so no word is placed at the highest address. -/
def append (draft : Draft) (line : SourceLine) (size : Int) (located : Bool) :
    Traced Draft :=
  if size ≠ 0 ∧ maxAddress < draft.location + size then
    Traced.fail (.reject line.number .segmentLeftMemory)
  else do
    let record : Record :=
      { line := line.number
        operation := line.operation
        label := line.label
        operands := line.operands
        location := if located then some draft.location else none
        size }
    let program ← Traced.lift (draft.program.addRecord record)
    return { draft with program, location := draft.location + size }

/-- Place the pool, fix the length and the execution address, and freeze.
Without an execution address a segment starts at its first word, a relocatable
one behind its last record. -/
def close (draft : Draft) (exec : Option Int) : Traced Program := do
  let (placed, after) ← Traced.lift (draft.program.placeLiterals draft.location)
  let default := if placed.relocatable then draft.location else placed.firstAddress
  let program ← Traced.lift
    { placed with
      length := after - placed.firstAddress
      execAddress := exec.getD default }.freeze
  Traced.note (.segmentClosed program.segment program.length program.literals.length
    draft.location program.execAddress)
  return program

def firstOperand (line : SourceLine) : Except Failure Operand :=
  match line.operands with
  | operand :: _ => .ok operand
  | [] => .error (.misuse .noSuchOperand)

/-- The load address of a segment; without one it is relocatable. -/
def loadAddress (line : SourceLine) : Except Failure (Option Int) :=
  match line.operands with
  | [] => .ok none
  | operand :: _ =>
      match operand.form.value? with
      | none => .error (.misuse (.noValue .bits))
      | some address =>
          if address < 0 ∨ maxAddress < address then
            .error (.reject line.number (.origAddress operand.text))
          else .ok (some address)

/-- Open the segment. -/
def origin (draft : Draft) (line : SourceLine) : Traced Draft :=
  match line.label with
  | none => Traced.fail (.reject line.number .origUnnamed)
  | some segment => do
      let load ← Traced.lift (loadAddress line)
      let firstAddress := load.getD 0
      let relocatable := load.isNone
      Traced.note (.segmentOpened segment firstAddress relocatable)
      append
        { program := { draft.program with segment, relocatable, firstAddress }
          location := firstAddress
          started := true }
        line 0 false

/-- The value and the relocatability that an equate gives its name. -/
def equateValue (draft : Draft) (line : SourceLine) (operand : Operand) :
    Except Failure (Int × Bool) :=
  match operand.form with
  | .immediate _ value =>
      if fitsWord value then .ok (value, false)
      else .error (.reject line.number (.wordOverflow operand.text))
  | _ =>
      match draft.program.symbol? operand.text with
      | some symbol => .ok (symbol.signedValue, symbol.relocatable)
      | none =>
          if draft.program.isExternal operand.text then
            .error (.reject line.number (.equExternal operand.text))
          else
            .error (.reject line.number
              (.undefinedSymbol operand.text (some ".EQU operands must be defined earlier")))

/-- Give a name a value. -/
def equate (limits : Limits) (draft : Draft) (line : SourceLine) : Traced Draft :=
  if line.label.isNone then Traced.fail (.reject line.number .equUnnamed)
  else do
    let operand ← Traced.lift (firstOperand line)
    let (value, relocatable) ← Traced.lift (draft.equateValue line operand)
    let defined ← draft.define limits line value relocatable
    defined.append line 0 false

def blockWords (draft : Draft) (line : SourceLine) (operand : Operand) :
    Except Failure Int := do
  let words ←
    match operand.form with
    | .immediate _ value => .ok value
    | _ =>
        match draft.program.symbol? operand.text with
        | some symbol =>
            if symbol.relocatable then
              .error (.reject line.number (.blockSymbol operand.text))
            else .ok symbol.signedValue
        | none => .error (.reject line.number (.blockSymbol operand.text))
  if words ≤ 0 then .error (.reject line.number (.blockSize words)) else .ok words

/-- Reserve a block of words. -/
def block (limits : Limits) (draft : Draft) (line : SourceLine) : Traced Draft := do
  let operand ← Traced.lift (firstOperand line)
  let words ← Traced.lift (draft.blockWords line operand)
  let defined ← draft.defineHere limits line
  defined.append line words true

/-- Store the characters of a string and a zero word: the two quotes stand for
one word. -/
def string (limits : Limits) (draft : Draft) (line : SourceLine) : Traced Draft := do
  let defined ← draft.defineHere limits line
  let operand ← Traced.lift (firstOperand line)
  defined.append line (operand.text.length - 1) true

/-- Declare names one after the other. -/
def declareAll (add : Program → String → Option Int → Except Failure Program) (number : Int) :
    Program → List Operand → Except Failure Program
  | program, [] => .ok program
  | program, operand :: operands => do
      let declared ← add program operand.text (some number)
      declareAll add number declared operands

/-- Declare the operands with a table of the program. -/
def declaration (add : Program → String → Option Int → Except Failure Program)
    (limits : Limits) (draft : Draft) (line : SourceLine) : Traced Draft := do
  let defined ← draft.defineHere limits line
  let program ← Traced.lift (declareAll add line.number defined.program line.operands)
  append { defined with program } line 0 false

def execAddress (draft : Draft) (line : SourceLine) : Except Failure (Option Int) :=
  match line.operands with
  | [] => .ok none
  | operand :: _ =>
      match operand.form with
      | .immediate _ value => .ok (some value)
      | _ =>
          match draft.program.symbol? operand.text with
          | some symbol => .ok (some symbol.value)
          | none =>
              .error (.reject line.number
                (.undefinedSymbol operand.text
                  (some "the execution address must be a local symbol")))

/-- End the segment. -/
def finish (draft : Draft) (line : SourceLine) : Traced Program :=
  match line.label with
  | some label => Traced.fail (.reject line.number (.labelOnEnd label))
  | none => do
      let exec ← Traced.lift (draft.execAddress line)
      let last ← draft.append line 0 false
      last.close exec

/-- A machine instruction occupies one word. -/
def instruction (limits : Limits) (draft : Draft) (line : SourceLine) : Traced Draft := do
  let defined ← draft.defineHere limits line
  let program ← poolAll limits line.number defined.program line.operands
  append { defined with program } line 1 true

/-- Carry out a directive whose operands are checked. -/
def obey (limits : Limits) (draft : Draft) (line : SourceLine) :
    Directive → Traced Progress
  | .orig => .more <$> draft.origin line
  | .endSegment => .done <$> draft.finish line
  | .equ => .more <$> draft.equate limits line
  | .fill => do
      let defined ← draft.defineHere limits line
      .more <$> defined.append line 1 true
  | .strz => .more <$> draft.string limits line
  | .blkw => .more <$> draft.block limits line
  | .ent => .more <$> declaration Program.addEntry limits draft line
  | .ext => .more <$> declaration Program.addExternal limits draft line

/-- Take in one record. -/
def accept (limits : Limits) (draft : Draft) (line : SourceLine) : Traced Progress :=
  match line.operation with
  | .unknown name => Traced.fail (.reject line.number (.unknownOpcode name))
  | .instruction mnemonic => do
      Traced.lift (draft.checkOrder line)
      Traced.lift (checkCount line (mnemonic.slots.length, mnemonic.slots.length))
      Traced.lift (checkSlots line 0 mnemonic.slots line.operands)
      .more <$> draft.instruction limits line
  | .directive directive => do
      Traced.lift (draft.checkOrder line)
      Traced.lift (checkCount line directive.arity)
      Traced.lift (checkKinds line directive 0 line.operands)
      draft.obey limits line directive

/-- What a source without an end amounts to; `count` lines were read. -/
def exhausted (draft : Draft) (count : Nat) : Ending → Failure
  | .complete =>
      if draft.started then .reject count .noEnd
      else .rejected { cause := .emptySource, line := none }
  | .unreadable refusal =>
      .rejected
        { cause := .unreadable refusal.message
          line := if count = 0 then none else some count }
  | .undecodable fault => .undecodable fault

/-- Read the lines that are left after the first `count` ones.  The record
ceiling closes the segment before the next record. -/
def readLines (limits : Limits) (ending : Ending) :
    Nat → Draft → List String → Traced Program
  | count, draft, [] => Traced.fail (draft.exhausted count ending)
  | count, draft, raw :: rest =>
      let number := count + 1
      let line := Text.chomp raw
      if SourceLine.isComment line then readLines limits ending number draft rest
      else if limits.maxRecords ≤ draft.program.records.length then do
        Traced.note (.warned (.recordLimit limits.maxRecords number))
        draft.close none
      else
        match SourceLine.split limits.spareCalls number line with
        | .error failure => Traced.fail failure
        | .ok parsed => do
            match ← draft.accept limits parsed with
            | .done program => return program
            | .more next => readLines limits ending number next rest

end Draft

/-- Read a source into a frozen program. -/
def Program.read (limits : Limits) (source : Source) : Traced Program :=
  Draft.readLines limits source.ending 0 {} source.lines

end Lc3Assembler
