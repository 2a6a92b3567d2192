import Lc3Assembler.Text.Blank

/-!
# Numerals

Addresses and words are printed in hexadecimal and binary with leading
zeros, line numbers in decimal with leading spaces.  A width is a least
width: a number that needs more places keeps all of its digits, and the sign
of a negative number takes one place.
-/

namespace Lc3Assembler.Text

/-- The sign a number is printed with. -/
def signOf (value : Int) : List Char :=
  if value < 0 then ['-'] else []

/-- Sign, zeros up to the width, and the digits of the absolute value. -/
def numeral (base width : Nat) (value : Int) : List Char :=
  let sign := signOf value
  let digits := Nat.toDigits base value.natAbs
  sign ++ List.replicate (width - (sign.length + digits.length)) '0' ++ digits

/-- Lower-case hexadecimal of at least `width` places. -/
def hexLower (width : Nat) (value : Int) : String :=
  String.ofList (numeral 16 width value)

/-- Upper-case hexadecimal of at least `width` places. -/
def hexUpper (width : Nat) (value : Int) : String :=
  String.ofList ((numeral 16 width value).map Char.toUpper)

/-- Binary of at least `width` places. -/
def binary (width : Nat) (value : Int) : String :=
  String.ofList (numeral 2 width value)

def decimal (value : Int) : String :=
  String.ofList (numeral 10 0 value)

/-- Decimal with zeros on the left to at least `width` places. -/
def decimalZeros (width : Nat) (value : Int) : String :=
  String.ofList (numeral 10 width value)

/-- Decimal with spaces on the left to at least `width` places. -/
def decimalRight (width : Nat) (value : Int) : String :=
  String.ofList (padStart width (numeral 10 0 value))

/-- Fill up a text with spaces on the right. -/
def left (width : Nat) (text : String) : String :=
  String.ofList (padEnd width text.toList)

end Lc3Assembler.Text
