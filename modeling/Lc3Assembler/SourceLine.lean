import Lc3Assembler.Failure
import Lc3Assembler.Operation

/-!
# Source lines

A source line has fixed columns: the label in columns 1 to 6, the opcode in
columns 10 to 14, and the operands from column 18 on, with blank gaps between
them.  The operands are separated by commas and end at the first blank or
semicolon; only the string directive takes an operand that may hold blanks,
commas and semicolons.  A line that starts with a semicolon is a comment.
-/

namespace Lc3Assembler

/-- A source line taken apart. -/
structure SourceLine where
  number : Int
  label : Option String
  operation : Operation
  operands : List Operand
  deriving DecidableEq, Repr

namespace SourceLine

/-- Why a line cannot be taken apart: it breaks a rule, or too many calls nest where an
operand of it is classified. -/
inductive Fault where
  | broken (cause : Cause)
  | tooDeep
  deriving DecidableEq, Repr

def isComment (line : String) : Bool :=
  line.toList.head? = some ';'

/-- The label field, columns 1 to 6. -/
def labelField (line : List Char) : List Char :=
  line.take 6

/-- The gap in columns 7 to 9. -/
def labelGap (line : List Char) : List Char :=
  (line.drop 6).take 3

/-- The opcode field, columns 10 to 14. -/
def opcodeField (line : List Char) : List Char :=
  (line.drop 9).take 5

/-- The gap in columns 15 to 17. -/
def opcodeGap (line : List Char) : List Char :=
  (line.drop 14).take 3

/-- The operand field, from column 18 on. -/
def operandField (line : List Char) : List Char :=
  line.drop 17

/-- A letter that may start a label: `R` and `x` start other operands. -/
def isLabelLead (c : Char) : Bool :=
  Text.isLetter c && c != 'R' && c != 'x'

/-- A label filled up with spaces. -/
def isLabelField (field : List Char) : Bool :=
  match Text.dropEndWhile (· = ' ') (Token.withoutFinalNewline field) with
  | [] => false
  | lead :: rest => isLabelLead lead && Token.isNameRest 5 rest

def readLabel (field : List Char) : Except Fault (Option String) :=
  if Text.allBlank field then .ok none
  else
    let name := String.ofList (Text.trim field)
    if isLabelField field then .ok (some name) else .error (.broken (.labelShape name))

/-- The opcode of an opcode field: it starts in the first column, holds no
space, and a blank gap follows it. -/
def readOpcode (field gap : List Char) : Except Fault String :=
  let name := Text.trimEnd field
  let startsBlank := (name.head?.map Text.isBlank).getD true
  if startsBlank || name.contains ' ' || !Text.allBlank gap then .error (.broken .opcodeShape)
  else .ok (String.ofList name)

/-- The texts between commas. -/
def splitCommas : List Char → List (List Char)
  | [] => [[]]
  | c :: rest =>
      if c = ',' then [] :: splitCommas rest
      else
        match splitCommas rest with
        | [] => [[c]]
        | first :: others => (c :: first) :: others

/-- A blank or a semicolon ends the operand field. -/
def endsOperands (c : Char) : Bool :=
  Text.isBlank c || c = ';'

def plainTokens (field : List Char) : List (List Char) :=
  match field.takeWhile (!endsOperands ·) with
  | [] => []
  | tokens => splitCommas tokens

/-- The string token whose opening quote is already read. -/
def stringToken (rest : List Char) : Except Fault (List Char) :=
  let body := rest.takeWhile (· != '"')
  match rest.drop body.length with
  | [] => .error (.broken .unterminatedString)
  | _ :: after =>
      match after.head? with
      | none => .ok ('"' :: body ++ ['"'])
      | some next =>
          if endsOperands next then .ok ('"' :: body ++ ['"'])
          else .error (.broken (.textAfterString (String.ofList (Text.trim after))))

/-- The tokens of the operand field of an operation. -/
def readTokens (opcode : String) (field : List Char) : Except Fault (List (List Char)) :=
  match field with
  | '"' :: rest =>
      if opcode = Directive.strz.name then (stringToken rest).map ([·])
      else .ok (plainTokens field)
  | _ => .ok (plainTokens field)

/-- At most three operands, none of them malformed.  All of them are classified before the
first that is malformed is blamed. -/
def readOperands (spareCalls : Nat) (tokens : List (List Char)) : Except Fault (List Operand) :=
  if Directive.maxOperands < tokens.length then
    .error (.broken (.tooManyOperands tokens.length))
  else
    match Operand.parseAll spareCalls tokens with
    | none => .error .tooDeep
    | some parsed =>
        match parsed.find? fun operand => operand.kind = .malformed with
        | some operand => .error (.broken (.operandShape operand.text))
        | none => .ok parsed

/-- Take a line apart; the first field that breaks its rule is to blame. -/
def fields (spareCalls : Nat) (number : Int) (line : List Char) : Except Fault SourceLine := do
  if line.length ≤ 9 || !Text.allBlank (labelGap line) then
    throw (.broken .recordShape)
  let label ← readLabel (labelField line)
  let opcode ← readOpcode (opcodeField line) (opcodeGap line)
  let tokens ← readTokens opcode (operandField line)
  let operands ← readOperands spareCalls tokens
  return { number, label, operation := .ofName opcode, operands }

/-- Take a line apart that is no comment. -/
def split (spareCalls : Nat) (number : Int) (line : String) : Except Failure SourceLine :=
  match fields spareCalls number line.toList with
  | .ok parsed => .ok parsed
  | .error (.broken cause) => .error (.reject number cause)
  | .error .tooDeep => .error .tooDeep

end SourceLine

end Lc3Assembler
