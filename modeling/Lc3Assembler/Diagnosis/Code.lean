import Lc3Assembler.Text.Numeral

/-!
# Diagnostic codes

Every diagnostic carries a number: below 200 for errors in the source, below
300 for tables that are full, and 300 for a source that cannot be read.
-/

namespace Lc3Assembler

/-- The conditions that are reported. -/
inductive Code where
  | malformedRecord
  | invalidLabel
  | malformedOperand
  | unterminatedString
  | tooManyOperands
  | unknownOpcode
  | wrongOperandCount
  | invalidOperandKind
  | literalNotAllowed
  | duplicateSymbol
  | undefinedSymbol
  | externalNotFinal
  | operandOutOfBounds
  | pageMismatch
  | missingOrig
  | extraOrig
  | missingEnd
  | segmentOverflow
  | invalidDirective
  | symbolTableFull
  | literalPoolFull
  | recordLimit
  | unreadable
  deriving DecidableEq, Repr

namespace Code

def all : List Code :=
  [.malformedRecord, .invalidLabel, .malformedOperand, .unterminatedString, .tooManyOperands,
   .unknownOpcode, .wrongOperandCount, .invalidOperandKind, .literalNotAllowed,
   .duplicateSymbol, .undefinedSymbol, .externalNotFinal, .operandOutOfBounds, .pageMismatch,
   .missingOrig, .extraOrig, .missingEnd, .segmentOverflow, .invalidDirective,
   .symbolTableFull, .literalPoolFull, .recordLimit, .unreadable]

def number : Code → Nat
  | .malformedRecord => 100
  | .invalidLabel => 101
  | .malformedOperand => 102
  | .unterminatedString => 103
  | .tooManyOperands => 104
  | .unknownOpcode => 110
  | .wrongOperandCount => 111
  | .invalidOperandKind => 112
  | .literalNotAllowed => 113
  | .duplicateSymbol => 114
  | .undefinedSymbol => 115
  | .externalNotFinal => 116
  | .operandOutOfBounds => 117
  | .pageMismatch => 118
  | .missingOrig => 119
  | .extraOrig => 120
  | .missingEnd => 121
  | .segmentOverflow => 122
  | .invalidDirective => 123
  | .symbolTableFull => 200
  | .literalPoolFull => 201
  | .recordLimit => 202
  | .unreadable => 300

def ofNumber? (number : Int) : Option Code :=
  all.find? fun code => (code.number : Int) == number

def name : Code → String
  | .malformedRecord => "MALFORMED_RECORD"
  | .invalidLabel => "INVALID_LABEL"
  | .malformedOperand => "MALFORMED_OPERAND"
  | .unterminatedString => "UNTERMINATED_STRING"
  | .tooManyOperands => "TOO_MANY_OPERANDS"
  | .unknownOpcode => "UNKNOWN_OPCODE"
  | .wrongOperandCount => "WRONG_OPERAND_COUNT"
  | .invalidOperandKind => "INVALID_OPERAND_KIND"
  | .literalNotAllowed => "LITERAL_NOT_ALLOWED"
  | .duplicateSymbol => "DUPLICATE_SYMBOL"
  | .undefinedSymbol => "UNDEFINED_SYMBOL"
  | .externalNotFinal => "EXTERNAL_NOT_FINAL"
  | .operandOutOfBounds => "OPERAND_OUT_OF_BOUNDS"
  | .pageMismatch => "PAGE_MISMATCH"
  | .missingOrig => "MISSING_ORIG"
  | .extraOrig => "EXTRA_ORIG"
  | .missingEnd => "MISSING_END"
  | .segmentOverflow => "SEGMENT_OVERFLOW"
  | .invalidDirective => "INVALID_DIRECTIVE"
  | .symbolTableFull => "SYMBOL_TABLE_FULL"
  | .literalPoolFull => "LITERAL_POOL_FULL"
  | .recordLimit => "RECORD_LIMIT"
  | .unreadable => "IO_ERROR"

/-- The three places a code is printed in. -/
def digits (code : Code) : String :=
  Text.decimalZeros 3 code.number

@[simp] theorem ofNumber?_number (code : Code) : ofNumber? code.number = some code := by
  cases code <;> decide

end Code

end Lc3Assembler
