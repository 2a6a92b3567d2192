import Lc3Assembler.Diagnosis.Code
import Lc3Assembler.Operand

/-!
# Causes of a rejected source

A source is rejected for one cause, at one line if a line is to blame.  The
cause fixes the class of the error, its code, its wording and the hint; these
four are the only places where the words of an error stand.
-/

namespace Lc3Assembler

/-- The classes of errors. -/
inductive ErrorClass where
  | general
  | grammar
  | undefinedSymbol
  | duplicateSymbol
  | operand
  | range
  | page
  | directive
  | segment
  deriving DecidableEq, Repr

namespace ErrorClass

/-- The code of an error that states none of its own. -/
def defaultCode : ErrorClass → Code
  | .general => .malformedRecord
  | .grammar => .malformedRecord
  | .undefinedSymbol => .undefinedSymbol
  | .duplicateSymbol => .duplicateSymbol
  | .operand => .invalidOperandKind
  | .range => .operandOutOfBounds
  | .page => .pageMismatch
  | .directive => .invalidDirective
  | .segment => .segmentOverflow

/-- Page errors are range errors too. -/
def isRange : ErrorClass → Bool
  | .range | .page => true
  | _ => false

end ErrorClass

/-- Why a source is rejected. -/
inductive Cause where
  /-- The line is too short, or the gap after the label is not blank. -/
  | recordShape
  /-- The label field does not hold a label. -/
  | labelShape (field : String)
  /-- The opcode field is empty or not followed by a blank gap. -/
  | opcodeShape
  /-- More operands than any operation takes. -/
  | tooManyOperands (count : Nat)
  /-- An operand of no kind. -/
  | operandShape (text : String)
  /-- A string without its closing quote. -/
  | unterminatedString
  /-- A string that something follows without a blank. -/
  | textAfterString (text : String)
  /-- The supply of lines failed. -/
  | unreadable (reason : String)
  /-- No record at all. -/
  | emptySource
  /-- The last line came before the end of the segment. -/
  | noEnd
  /-- An opcode of neither table. -/
  | unknownOpcode (name : String)
  /-- A first record that does not open the segment. -/
  | origExpected (found : String)
  /-- A second record that opens a segment. -/
  | extraOrig
  /-- Fewer or more operands than the operation takes. -/
  | operandCount (opcode : String) (fewest most count : Nat)
  /-- An operand of a kind that its slot does not take. -/
  | operandKind (kind : Kind) (text : String) (index : Nat) (opcode : String)
      (expected : List String)
  /-- A literal where no literal may stand. -/
  | literalPlace (text : String)
  /-- A value that no word can hold. -/
  | wordOverflow (text : String)
  /-- A record that runs past the last address. -/
  | segmentLeftMemory
  /-- A segment without a name. -/
  | origUnnamed
  /-- A load address outside memory. -/
  | origAddress (text : String)
  /-- An equate without a name. -/
  | equUnnamed
  /-- An equate to a symbol of another segment. -/
  | equExternal (name : String)
  /-- A block whose size is no known absolute symbol. -/
  | blockSymbol (name : String)
  /-- A block of no words. -/
  | blockSize (words : Int)
  /-- A label on the record that ends the segment. -/
  | labelOnEnd (label : String)
  /-- A name that nothing defines. -/
  | undefinedSymbol (name : String) (hint : Option String)
  /-- A name that is defined twice, with the line of the first definition. -/
  | duplicateSymbol (name : String) (firstLine : Option Int)
  /-- A literal pool that runs past the last address. -/
  | poolOverflow (start : Int)
  /-- A segment that starts outside memory. -/
  | firstAddress (address : Int)
  /-- An execution address before the segment or outside memory. -/
  | execAddress (address first : Int)
  /-- An external symbol before the last operand. -/
  | externalNotFinal (name : String)
  /-- A literal that the full pool did not take. -/
  | unpooledLiteral (text : String)
  /-- A data word that does not fit. -/
  | fillOverflow (text : String)
  /-- An immediate that its field does not accept. -/
  | immediateRange (text : String) (width : Int) (base : Option Base)
  /-- A symbol whose value its field does not accept. -/
  | symbolRange (name : String) (value : Int) (width : Int)
  /-- An address on another page than the next instruction. -/
  | page (address location : Int)
  /-- A condition in the words of whoever reports it. -/
  | stated (errorClass : ErrorClass) (message : String) (code : Code) (hint : Option String)
  deriving DecidableEq, Repr

namespace Cause

def errorClass : Cause → ErrorClass
  | .recordShape | .labelShape _ | .opcodeShape | .tooManyOperands _ | .operandShape _
  | .unterminatedString | .textAfterString _ => .grammar
  | .unreadable _ => .general
  | .emptySource | .noEnd | .origExpected _ | .extraOrig | .segmentLeftMemory
  | .poolOverflow _ | .firstAddress _ => .segment
  | .unknownOpcode _ | .operandCount _ _ _ _ | .operandKind _ _ _ _ _ | .literalPlace _
  | .externalNotFinal _ | .unpooledLiteral _ => .operand
  | .wordOverflow _ | .fillOverflow _ | .immediateRange _ _ _ | .symbolRange _ _ _ => .range
  | .origUnnamed | .origAddress _ | .equUnnamed | .equExternal _ | .blockSymbol _
  | .blockSize _ | .labelOnEnd _ | .execAddress _ _ => .directive
  | .undefinedSymbol _ _ => .undefinedSymbol
  | .duplicateSymbol _ _ => .duplicateSymbol
  | .page _ _ => .page
  | .stated errorClass _ _ _ => errorClass

def code : Cause → Code
  | .recordShape | .opcodeShape => .malformedRecord
  | .labelShape _ => .invalidLabel
  | .tooManyOperands _ => .tooManyOperands
  | .operandShape _ | .textAfterString _ => .malformedOperand
  | .unterminatedString => .unterminatedString
  | .unreadable _ => .unreadable
  | .emptySource | .origExpected _ => .missingOrig
  | .noEnd => .missingEnd
  | .unknownOpcode _ => .unknownOpcode
  | .extraOrig => .extraOrig
  | .operandCount _ _ _ _ => .wrongOperandCount
  | .operandKind _ _ _ _ _ => .invalidOperandKind
  | .literalPlace _ => .literalNotAllowed
  | .wordOverflow _ | .origAddress _ | .fillOverflow _ | .immediateRange _ _ _
  | .symbolRange _ _ _ => .operandOutOfBounds
  | .segmentLeftMemory | .poolOverflow _ | .firstAddress _ => .segmentOverflow
  | .origUnnamed | .equUnnamed | .equExternal _ | .blockSymbol _ | .blockSize _
  | .labelOnEnd _ | .execAddress _ _ => .invalidDirective
  | .undefinedSymbol _ _ | .unpooledLiteral _ => .undefinedSymbol
  | .duplicateSymbol _ _ => .duplicateSymbol
  | .externalNotFinal _ => .externalNotFinal
  | .page _ _ => .pageMismatch
  | .stated _ _ code _ => code

/-- One number, or the two ends of a range. -/
def arityText (fewest most : Nat) : String :=
  if fewest = most then Text.decimal fewest
  else Text.decimal fewest ++ " to " ++ Text.decimal most

def message : Cause → String
  | .recordShape => "malformed record"
  | .labelShape field => "invalid label '" ++ field ++ "'"
  | .opcodeShape => "expected opcode in columns 10-14"
  | .tooManyOperands count => "too many operands (" ++ Text.decimal count ++ ", at most 3)"
  | .operandShape text => "malformed operand '" ++ text ++ "'"
  | .unterminatedString => "unterminated string"
  | .textAfterString text => "unexpected text after string: '" ++ text ++ "'"
  | .unreadable reason => "cannot read source: " ++ reason
  | .emptySource => "empty source: expected .ORIG"
  | .noEnd => "no .END record"
  | .unknownOpcode name => "unknown opcode '" ++ name ++ "'"
  | .origExpected found => "expected .ORIG, found '" ++ found ++ "'"
  | .extraOrig => "extra .ORIG record"
  | .operandCount opcode fewest most count =>
      "wrong number of operands for " ++ opcode ++ ": expected " ++ arityText fewest most
        ++ ", got " ++ Text.decimal count
  | .operandKind kind text index opcode _ =>
      kind.text ++ " operand '" ++ text ++ "' not allowed in operand "
        ++ Text.decimal (index + 1) ++ " of " ++ opcode
  | .literalPlace text =>
      "literal '" ++ text ++ "' is only allowed as the second operand of LD"
  | .wordOverflow text => "value '" ++ text ++ "' does not fit in 16 bits"
  | .segmentLeftMemory => "segment left system memory (location counter past xFFFF)"
  | .origUnnamed => ".ORIG requires a label naming the segment"
  | .origAddress text => ".ORIG address '" ++ text ++ "' outside system memory"
  | .equUnnamed => ".EQU requires a label"
  | .equExternal name => ".EQU cannot take the value of external symbol '" ++ name ++ "'"
  | .blockSymbol name =>
      ".BLKW needs a previously defined absolute symbol, got '" ++ name ++ "'"
  | .blockSize words => ".BLKW size must be positive, got " ++ Text.decimal words
  | .labelOnEnd label => "label '" ++ label ++ "' not allowed on .END"
  | .undefinedSymbol name _ => "undefined symbol '" ++ name ++ "'"
  | .duplicateSymbol name _ => "duplicate symbol '" ++ name ++ "'"
  | .poolOverflow start => "literal pool at x" ++ Text.hexUpper 4 start ++ " leaves system memory"
  | .firstAddress address => "first address x" ++ Text.hexUpper 0 address ++ " outside memory"
  | .execAddress address first =>
      "execution address x" ++ Text.hexUpper 4 address ++ " outside segment range x"
        ++ Text.hexUpper 4 first ++ "-xFFFF"
  | .externalNotFinal name =>
      "external symbol '" ++ name ++ "' may only appear in the final operand"
  | .unpooledLiteral text => "literal '" ++ text ++ "' has no pool entry"
  | .fillOverflow text => ".FILL value '" ++ text ++ "' does not fit in 16 bits"
  | .immediateRange text _ _ => "immediate out of bounds: '" ++ text ++ "'"
  | .symbolRange name value _ =>
      "symbol out of bounds: '" ++ name ++ "' = x" ++ Text.hexUpper 4 value
  | .page address location =>
      "page number mismatch: x" ++ Text.hexUpper 4 address ++ " is on page "
        ++ Text.decimal (pageOf address) ++ ", instruction at x" ++ Text.hexUpper 4 location
        ++ " executes on page " ++ Text.decimal (pageOf (location + 1))
  | .stated _ message _ _ => message

def hint? : Cause → Option String
  | .recordShape => some "labels go in columns 1-6 and opcodes start in column 10"
  | .labelShape _ =>
      some "labels are 1-6 letters or digits and may not start with R, x or a digit"
  | .opcodeShape => some "operands start in column 18"
  | .operandKind _ _ _ _ expected => some ("expected " ++ ", ".intercalate expected)
  | .blockSymbol _ => some "forward references are not allowed in .BLKW"
  | .undefinedSymbol _ hint => hint
  | .duplicateSymbol name firstLine =>
      firstLine.map fun line =>
        "'" ++ name ++ "' was first defined on line " ++ Text.decimal line
  | .unpooledLiteral _ => some "the literal pool was full when it was first used"
  | .immediateRange _ width base => some (FieldRange.hint width base)
  | .symbolRange _ _ width => some (FieldRange.hint width none)
  | .page _ _ => some "move the target onto the same page or use an indirect load"
  | .stated _ _ _ hint => hint
  | _ => none

end Cause

/-- A cause and the line it was found on. -/
structure AssemblyError where
  cause : Cause
  line : Option Int
  deriving DecidableEq, Repr

namespace AssemblyError

def code (error : AssemblyError) : Code :=
  error.cause.code

/-- Line, code and message, and the hint on a line of its own. -/
def text (error : AssemblyError) : String :=
  let place :=
    match error.line with
    | some line => "line " ++ Text.decimal line ++ ": "
    | none => ""
  let head := place ++ "error E" ++ error.code.digits ++ ": " ++ error.cause.message
  match error.cause.hint? with
  | some hint => if hint.isEmpty then head else head ++ "\nhint: " ++ hint
  | none => head

end AssemblyError

end Lc3Assembler
