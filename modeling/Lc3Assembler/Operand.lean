import Lc3Assembler.Text.Integer
import Lc3Assembler.Word

/-!
# Operands

An operand is classified by its own characters alone.  The first character
decides: `R` starts a register, `x` and `#` an immediate, `=` a literal, a
double quote a string, and any other letter a symbol.  A token that breaks the
rule of its first character is malformed, so no symbol starts with `R` or `x`.
One line feed may follow a complete token.

What stands behind the `=` of a literal is classified by a call of its own, and
so on behind every further `=`.  A host lets only so many calls nest: two are
enough for every token that is not malformed, and the host has some to spare.
-/

namespace Lc3Assembler

/-- The syntactic kind of an operand. -/
inductive Kind where
  | register
  | immediate
  | literal
  | symbol
  | string
  | malformed
  deriving DecidableEq, Repr

namespace Kind

def all : List Kind :=
  [.register, .immediate, .literal, .symbol, .string, .malformed]

/-- What a message calls the kind. -/
def text : Kind → String
  | .register => "register"
  | .immediate => "immediate"
  | .literal => "literal"
  | .symbol => "symbol"
  | .string => "string"
  | .malformed => "malformed"

end Kind

/-- What an operand denotes: a register number, a value with the base it was
written in, a pooled value, a name, characters, or nothing. -/
inductive Form where
  | register (number : Nat)
  | immediate (base : Base) (value : Int)
  | literal (base : Base) (value : Int)
  | symbol
  | string
  | malformed
  deriving DecidableEq, Repr

namespace Form

def kind : Form → Kind
  | .register _ => .register
  | .immediate _ _ => .immediate
  | .literal _ _ => .literal
  | .symbol => .symbol
  | .string => .string
  | .malformed => .malformed

/-- The number an operand denotes by itself. -/
def value? : Form → Option Int
  | .register number => some number
  | .immediate _ value => some value
  | .literal _ value => some value
  | _ => none

/-- The base an immediate or a literal is written in. -/
def base? : Form → Option Base
  | .immediate base _ => some base
  | .literal base _ => some base
  | _ => none

/-- What a token denotes behind whose `=` this stands. -/
def marked : Form → Form
  | .immediate base value => .literal base value
  | _ => .malformed

end Form

/-- The spare calls of a host that is not set up otherwise. -/
def defaultSpareCalls : Nat := 980

namespace Token

/-- Drop one line feed at the end. -/
def withoutFinalNewline (text : List Char) : List Char :=
  if text.getLast? = some '\n' then text.dropLast else text

/-- Between one and `most` characters, all of them digits. -/
def isNumber (isDigit : Char → Bool) (most : Nat) (text : List Char) : Bool :=
  1 ≤ text.length && text.length ≤ most && text.all isDigit

/-- The value of an ASCII digit. -/
def digitOf (c : Char) : Nat :=
  if Text.isDecimalDigit c then c.toNat - '0'.toNat
  else if 'a' ≤ c then c.toNat - 'a'.toNat + 10
  else c.toNat - 'A'.toNat + 10

def numberOf (base : Nat) (digits : List Char) : Nat :=
  Text.positional base (digits.map digitOf)

/-- An `x` with up to four hexadecimal digits, or a `#` with an optional
minus sign and up to five decimal digits. -/
def immediate? (token : List Char) : Option (Base × Int) :=
  match token with
  | 'x' :: rest =>
      let digits := withoutFinalNewline rest
      if isNumber Text.isHexDigit 4 digits then some (.hexadecimal, numberOf 16 digits) else none
  | '#' :: '-' :: rest =>
      let digits := withoutFinalNewline rest
      if isNumber Text.isDecimalDigit 5 digits then some (.decimal, -(numberOf 10 digits : Int))
      else none
  | '#' :: rest =>
      let digits := withoutFinalNewline rest
      if isNumber Text.isDecimalDigit 5 digits then some (.decimal, numberOf 10 digits) else none
  | _ => none

/-- An `R` with a digit from zero to seven. -/
def registerNumber? (rest : List Char) : Option Nat :=
  match withoutFinalNewline rest with
  | [digit] => if '0' ≤ digit && digit ≤ '7' then some (digitOf digit) else none
  | _ => none

/-- The closing quote of a string is its last character. -/
def isStringRest (rest : List Char) : Bool :=
  (withoutFinalNewline rest).getLast? = some '"'

/-- At most `most` letters and digits. -/
def isNameRest (most : Nat) (rest : List Char) : Bool :=
  rest.length ≤ most && rest.all Text.isAlphanumeric

/-- What a token denotes that does not start with `=`. -/
def unmarkedForm (token : List Char) : Form :=
  match token with
  | [] => .malformed
  | 'R' :: rest =>
      match registerNumber? rest with
      | some number => .register number
      | none => .malformed
  | '"' :: rest => if isStringRest rest then .string else .malformed
  | lead :: rest =>
      if lead = 'x' ∨ lead = '#' then
        match immediate? token with
        | some (base, value) => .immediate base value
        | none => .malformed
      else if Text.isLetter lead && isNameRest 6 (withoutFinalNewline rest) then .symbol
      else .malformed

/-- What a token denotes, if no more than `calls` further calls have to nest. -/
def form : Nat → List Char → Option Form
  | 0, '=' :: _ => none
  | calls + 1, '=' :: rest => (form calls rest).map Form.marked
  | _, token => some (unmarkedForm token)

/-- The calls that nest behind the first where a token is classified. -/
def marks (token : List Char) : Nat :=
  (token.takeWhile (· = '=')).length

theorem marks_of_unmarked {token : List Char} (bare : token.head? ≠ some '=') :
    marks token = 0 := by
  cases token with
  | nil => rfl
  | cons lead rest => simp_all [marks]

theorem marks_replicate (count : Nat) : marks (List.replicate count '=') = count := by
  rw [marks, List.takeWhile_replicate, if_pos (by decide), List.length_replicate]

theorem form_of_unmarked {calls : Nat} {token : List Char} (bare : token.head? ≠ some '=') :
    form calls token = some (unmarkedForm token) := by
  unfold form
  split
  · exact absurd rfl bare
  · exact absurd rfl bare
  · rfl

/-- A token is classified exactly if the calls behind its `=` may nest. -/
theorem form_eq_none_iff {calls : Nat} {token : List Char} :
    form calls token = none ↔ calls < marks token := by
  induction calls generalizing token with
  | zero =>
      by_cases marked : token.head? = some '='
      · obtain ⟨rest, rfl⟩ := List.head?_eq_some_iff.mp marked
        simp [form, marks]
      · simp [form_of_unmarked marked, marks_of_unmarked marked]
  | succ calls induction =>
      by_cases marked : token.head? = some '='
      · obtain ⟨rest, rfl⟩ := List.head?_eq_some_iff.mp marked
        simp [form, marks, induction]
      · simp [form_of_unmarked marked, marks_of_unmarked marked]

/-- A token that is classified starts with no `=`, or what stands behind it is classified. -/
theorem form_eq_some {calls : Nat} {token : List Char} {result : Form}
    (read : form calls token = some result) :
    token.head? ≠ some '=' ∧ result = unmarkedForm token ∨
      ∃ fewer rest inner, calls = fewer + 1 ∧ token = '=' :: rest ∧
        form fewer rest = some inner ∧ result = inner.marked := by
  by_cases marked : token.head? = some '='
  · obtain ⟨rest, rfl⟩ := List.head?_eq_some_iff.mp marked
    cases calls with
    | zero => cases read
    | succ fewer =>
        obtain ⟨inner, found, rfl⟩ := Option.map_eq_some_iff.mp read
        exact .inr ⟨fewer, rest, inner, rfl, rfl, found, rfl⟩
  · rw [form_of_unmarked marked] at read
    cases read
    exact .inl ⟨marked, rfl⟩

/-- Why a token has no value: it is no immediate, as which it was read without a
leading `=`, or too many calls nest. -/
inductive ValueFault where
  | notImmediate (text : String)
  | tooDeep
  deriving DecidableEq, Repr

/-- A token without the sign of equality that makes a literal of an immediate. -/
def unmarked (token : String) : String :=
  if token.toList.head? = some '=' then String.ofList (token.toList.drop 1) else token

/-- The value of an immediate, or of a literal without its leading `=`.  This is one
call more, but with one `=` less. -/
def immediateValue (spareCalls : Nat) (token : String) : Except ValueFault Int :=
  let bare := unmarked token
  match form spareCalls bare.toList with
  | none => .error .tooDeep
  | some (.immediate _ value) => .ok value
  | some _ => .error (.notImmediate bare)

end Token

/-- A token as it was written, and what it denotes. -/
structure Operand where
  text : String
  form : Form
  deriving DecidableEq, Repr

namespace Operand

/-- Classify a token.  A host without spare calls still has the further call that a
literal needs. -/
def parse (spareCalls : Nat) (text : String) : Option Operand :=
  (Token.form (spareCalls + 1) text.toList).map fun form => { text, form }

theorem parse_eq_some_iff {spareCalls : Nat} {text : String} {operand : Operand} :
    parse spareCalls text = some operand ↔
      operand.text = text ∧ Token.form (spareCalls + 1) text.toList = some operand.form := by
  simp only [parse, Option.map_eq_some_iff]
  constructor
  · rintro ⟨form, read, rfl⟩
    exact ⟨rfl, read⟩
  · rintro ⟨rfl, read⟩
    exact ⟨operand.form, read, rfl⟩

theorem parse_eq_none_iff {spareCalls : Nat} {text : String} :
    parse spareCalls text = none ↔ spareCalls + 1 < Token.marks text.toList := by
  rw [parse, Option.map_eq_none_iff, Token.form_eq_none_iff]

/-- Classify tokens one after the other. -/
def parseAll (spareCalls : Nat) : List (List Char) → Option (List Operand)
  | [] => some []
  | token :: rest =>
      match parse spareCalls (String.ofList token) with
      | none => none
      | some operand => (parseAll spareCalls rest).map (operand :: ·)

def kind (operand : Operand) : Kind :=
  operand.form.kind

/-- The characters between the quotes of a string. -/
def stringBody? (operand : Operand) : Option (List Char) :=
  match operand.form with
  | .string => some (operand.text.toList.drop 1).dropLast
  | _ => none

/-- Operand texts as they stand in the operand field. -/
def joined (operands : List Operand) : String :=
  ",".intercalate (operands.map Operand.text)

end Operand

end Lc3Assembler
