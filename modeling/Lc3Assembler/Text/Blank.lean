/-!
# Blank characters

Columns of a source line, labels and opcodes are delimited by blanks.  This
file fixes which characters are blank, and supplies the trimming operations
the other text rules are built from.  All of them work on lists of
characters, so a column is a position in the list.
-/

namespace Lc3Assembler.Text

/-- Membership in a table of code point ranges, both ends included. -/
def inRanges (ranges : List (Nat × Nat)) (c : Char) : Bool :=
  ranges.any fun range => range.1 ≤ c.toNat && c.toNat ≤ range.2

/-- The blank characters: the ASCII blanks and separators, the next-line and
no-break spaces, and the space separators of the other scripts.  Zero-width
characters are not blank. -/
def blankRanges : List (Nat × Nat) :=
  [(0x09, 0x0D), (0x1C, 0x20), (0x85, 0x85), (0xA0, 0xA0), (0x1680, 0x1680),
   (0x2000, 0x200A), (0x2028, 0x2029), (0x202F, 0x202F), (0x205F, 0x205F),
   (0x3000, 0x3000)]

/-- A character that separates fields. -/
def isBlank (c : Char) : Bool :=
  inRanges blankRanges c

/-- Every character is blank; in particular the empty text is. -/
def allBlank (text : List Char) : Bool :=
  text.all isBlank

/-- Drop the longest final run of characters that satisfy a test. -/
def dropEndWhile (test : Char → Bool) (text : List Char) : List Char :=
  (text.reverse.dropWhile test).reverse

/-- Drop the blanks at the end. -/
def trimEnd (text : List Char) : List Char :=
  dropEndWhile isBlank text

/-- Drop the blanks at both ends. -/
def trim (text : List Char) : List Char :=
  trimEnd (text.dropWhile isBlank)

/-- Fill up with spaces on the right to at least `width` characters. -/
def padEnd (width : Nat) (text : List Char) : List Char :=
  text ++ List.replicate (width - text.length) ' '

/-- Fill up with spaces on the left to at least `width` characters. -/
def padStart (width : Nat) (text : List Char) : List Char :=
  List.replicate (width - text.length) ' ' ++ text

def isDecimalDigit (c : Char) : Bool :=
  '0' ≤ c && c ≤ '9'

/-- An ASCII hexadecimal digit of either case. -/
def isHexDigit (c : Char) : Bool :=
  isDecimalDigit c || ('a' ≤ c && c ≤ 'f') || ('A' ≤ c && c ≤ 'F')

/-- An ASCII letter of either case. -/
def isLetter (c : Char) : Bool :=
  ('A' ≤ c && c ≤ 'Z') || ('a' ≤ c && c ≤ 'z')

/-- An ASCII letter or decimal digit. -/
def isAlphanumeric (c : Char) : Bool :=
  isLetter c || isDecimalDigit c

@[simp] theorem length_padEnd (width : Nat) (text : List Char) :
    (padEnd width text).length = max width text.length := by
  simp only [padEnd, List.length_append, List.length_replicate]
  omega

end Lc3Assembler.Text
