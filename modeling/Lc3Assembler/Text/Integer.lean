import Lc3Assembler.Text.Blank

/-!
# Reading integers

Limits arrive as text, from options and from the environment.  The digits may
come from any script with decimal digits and may be grouped by single
underscores; a sign may stand in front, and blanks around the number are
ignored.
-/

namespace Lc3Assembler.Text

/-- The zeros of the scripts with decimal digits; the nine code points after
each zero are its digits one to nine. -/
def decimalZeroPoints : List Nat :=
  [0x30, 0x660, 0x6F0, 0x7C0, 0x966, 0x9E6, 0xA66, 0xAE6, 0xB66, 0xBE6, 0xC66, 0xCE6, 0xD66,
   0xDE6, 0xE50, 0xED0, 0xF20, 0x1040, 0x1090, 0x17E0, 0x1810, 0x1946, 0x19D0, 0x1A80, 0x1A90,
   0x1B50, 0x1BB0, 0x1C40, 0x1C50, 0xA620, 0xA8D0, 0xA900, 0xA9D0, 0xA9F0, 0xAA50, 0xABF0,
   0xFF10, 0x104A0, 0x10D30, 0x11066, 0x110F0, 0x11136, 0x111D0, 0x112F0, 0x11450, 0x114D0,
   0x11650, 0x116C0, 0x11730, 0x118E0, 0x11950, 0x11C50, 0x11D50, 0x11DA0, 0x16A60, 0x16AC0,
   0x16B50, 0x1D7CE, 0x1D7D8, 0x1D7E2, 0x1D7EC, 0x1D7F6, 0x1E140, 0x1E2F0, 0x1E950, 0x1FBF0]

/-- The value of a decimal digit of any script. -/
def digitValue? (c : Char) : Option Nat :=
  let zero := decimalZeroPoints.find? fun point => point ≤ c.toNat && c.toNat ≤ point + 9
  zero.map (c.toNat - ·)

/-- The longest digit sequence that is read as a number. -/
def maxIntegerDigits : Nat := 4300

/-- Blanks that may surround a number: all but the information separators. -/
def isNumberPadding (c : Char) : Bool :=
  isBlank c && !(0x1C ≤ c.toNat && c.toNat ≤ 0x1F)

/-- The digits of a number, where each underscore stands between two digits. -/
def digitValues? : List Char → Option (List Nat)
  | [] => none
  | [c] => (digitValue? c).map ([·])
  | c :: '_' :: rest => do
      let digit ← digitValue? c
      let digits ← digitValues? rest
      return digit :: digits
  | c :: rest => do
      let digit ← digitValue? c
      let digits ← digitValues? rest
      return digit :: digits

/-- The number a digit sequence denotes in a base. -/
def positional (base : Nat) (digits : List Nat) : Nat :=
  digits.foldl (fun value digit => value * base + digit) 0

/-- A natural number without sign or padding. -/
def readNatural? (text : List Char) : Option Nat := do
  let digits ← digitValues? text
  if digits.length ≤ maxIntegerDigits then some (positional 10 digits) else none

/-- Read an integer with optional sign and surrounding blanks. -/
def readInteger? (text : String) : Option Int :=
  match dropEndWhile isNumberPadding (text.toList.dropWhile isNumberPadding) with
  | '-' :: digits => (readNatural? digits).map fun value => -(value : Int)
  | '+' :: digits => (readNatural? digits).map fun value => (value : Int)
  | digits => (readNatural? digits).map fun value => (value : Int)

end Lc3Assembler.Text
