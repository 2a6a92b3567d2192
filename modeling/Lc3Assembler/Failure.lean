import Lc3Assembler.Diagnosis.Cause
import Lc3Assembler.Text.Quoted
import Lc3Assembler.Text.Utf8

/-!
# Failures

A call fails for one of five reasons: the source is rejected, the caller broke
a rule of the interface, the system refused a file, a file is not UTF-8, or more
calls nest than the host lets nest.  Only the first is meant for the author of a
source, so the others are kept apart from it.
-/

namespace Lc3Assembler

/-- What a record without a location was asked for. -/
inductive LocationUse where
  | next
  | print
  deriving DecidableEq, Repr

/-- What an operand without a value was asked for. -/
inductive ValueUse where
  | page
  | bits
  deriving DecidableEq, Repr

/-- A rule of the interface that a caller broke. -/
inductive Misuse where
  /-- A frozen program cannot change. -/
  | frozen
  /-- Literals are placed once. -/
  | literalsPlaced
  /-- Only a frozen program is encoded. -/
  | notFrozen
  /-- Results exist only after an assembly. -/
  | nothingAssembled
  /-- A name that a table does not hold. -/
  | noSuchName (name : String)
  /-- A word that the literal pool does not hold. -/
  | noSuchLiteral (word : Nat)
  /-- An operand or a slot that is not there. -/
  | noSuchOperand
  /-- An instruction of no table. -/
  | noSuchInstruction (name : String)
  /-- A record that has no location. -/
  | noLocation (use : LocationUse)
  /-- An operand that has no value. -/
  | noValue (use : ValueUse)
  /-- A string body of an operand that is no string. -/
  | notString (text : String)
  /-- The value of a token that is no immediate. -/
  | notImmediate (text : String)
  /-- A bit field that is too narrow to have a range or a mask. -/
  | narrowField
  /-- A limit below one. -/
  | limit (name : String) (value : Int)
  /-- A path with a null character, which no system takes. -/
  | nullInPath
  /-- A number that is no code. -/
  | unknownCode (number : Int)
  deriving DecidableEq, Repr

/-- The wording of a broken rule. -/
def Misuse.message : Misuse → String
  | .frozen => "program is frozen"
  | .literalsPlaced => "literal addresses have already been assigned"
  | .notFrozen => "program must be frozen before code generation"
  | .nothingAssembled => "nothing has been assembled"
  | .noSuchName name => Text.quoted name
  | .noSuchLiteral word => Text.decimal word
  | .noSuchOperand => "no such operand"
  | .noSuchInstruction name => "no such instruction: " ++ Text.quoted name
  | .noLocation _ => "record has no location"
  | .noValue _ => "operand has no value"
  | .notString text => "not a string operand: " ++ Text.quoted text
  | .notImmediate text => "not an immediate: " ++ Text.quoted text
  | .narrowField => "negative shift count"
  | .limit name value => name ++ " must be positive, got " ++ Text.decimal value
  | .nullInPath => "embedded null byte"
  | .unknownCode number => Text.decimal number ++ " is not a valid ErrorCode"

/-- The kinds of refusals by the system that are told apart. -/
inductive RefusalKind where
  | notFound
  | permission
  | isDirectory
  | notDirectory
  | tooLong
  | other
  deriving DecidableEq, Repr

/-- A refusal by the system: its number if it has one, its words, and the
path it is about. -/
structure Refusal where
  kind : RefusalKind
  number : Option Int
  text : String
  path : Option String
  deriving DecidableEq, Repr

namespace Refusal

def kindOfNumber (number : Int) : RefusalKind :=
  if number = 2 then .notFound
  else if number = 1 ∨ number = 13 then .permission
  else if number = 21 then .isDirectory
  else if number = 20 then .notDirectory
  else if number = 36 then .tooLong
  else .other

/-- A file or a directory on the way to it does not exist. -/
def missing (path : String) : Refusal :=
  { kind := .notFound, number := some 2, text := "No such file or directory", path := some path }

/-- A file where a directory is needed. -/
def throughFile (path : String) : Refusal :=
  { kind := .notDirectory, number := some 20, text := "Not a directory", path := some path }

/-- A directory where a file is needed. -/
def directory (path : String) : Refusal :=
  { kind := .isDirectory, number := some 21, text := "Is a directory", path := some path }

/-- A file that its permissions close. -/
def denied (path : String) : Refusal :=
  { kind := .permission, number := some 13, text := "Permission denied", path := some path }

/-- A name or a path with too many bytes. -/
def nameTooLong (path : String) : Refusal :=
  { kind := .tooLong, number := some 36, text := "File name too long", path := some path }

/-- Number, words and path, as far as they are known. -/
def message (refusal : Refusal) : String :=
  match refusal.number with
  | none => refusal.text
  | some number =>
      let head := "[Errno " ++ Text.decimal number ++ "] " ++ refusal.text
      match refusal.path with
      | some path => head ++ ": " ++ Text.quoted path
      | none => head

/-- The words alone, or the whole message if there are none. -/
def reason (refusal : Refusal) : String :=
  if refusal.number.isSome && !refusal.text.isEmpty then refusal.text else refusal.message

end Refusal

/-- Why a call failed. -/
inductive Failure where
  | rejected (error : AssemblyError)
  | misuse (rule : Misuse)
  | refused (refusal : Refusal)
  | undecodable (fault : Text.Utf8.Fault)
  | tooDeep
  deriving DecidableEq, Repr

namespace Failure

def message : Failure → String
  | .rejected error => error.text
  | .misuse rule => rule.message
  | .refused refusal => refusal.message
  | .undecodable fault => fault.message
  | .tooDeep => "maximum recursion depth exceeded"

def reject (line : Int) (cause : Cause) : Failure :=
  .rejected { cause, line := some line }

end Failure

end Lc3Assembler
