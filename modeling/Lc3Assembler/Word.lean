import Lc3Assembler.Text.Numeral

/-!
# Words, pages and bit fields

The machine has 16-bit words and addresses, and a 9-bit address field holds
an offset inside a 512-word page.  Values are unbounded integers until they
are packed, so a value that does not fit is refused and never wraps.
`FieldRange.of?` gives the values a field of some width accepts.
-/

namespace Lc3Assembler

/-- Number of words in memory, and of values of a word. -/
def wordCount : Int := 0x10000

/-- Highest word address. -/
def maxAddress : Int := 0xFFFF

/-- Width of a page offset, and so of every address field. -/
def addressWidth : Int := 9

def dataWidth : Int := 16

/-- The word that a signed or unsigned value is stored as. -/
def wordOf (value : Int) : Nat :=
  (value % wordCount).toNat

/-- The values that a word can hold, read as signed or as unsigned. -/
def fitsWord (value : Int) : Bool :=
  -0x8000 ≤ value && value ≤ 0xFFFF

def pageOf (address : Int) : Int :=
  address / 512

/-- The base an immediate is written in. -/
inductive Base where
  | hexadecimal
  | decimal
  deriving DecidableEq, Repr

/-- The least and the greatest value that a bit field accepts. -/
structure FieldRange where
  low : Int
  high : Int
  deriving DecidableEq, Repr

namespace FieldRange

def contains (range : FieldRange) (value : Int) : Bool :=
  range.low ≤ value && value ≤ range.high

/-- The range of a field.  An address field takes every address, since the
page check restricts it further.  Any other field keeps its top bit clear: a
value takes one bit less than the width, and a decimal value is signed in
those bits.  Nothing is said of a field that is too narrow for that. -/
def of? (width : Int) (base : Option Base) : Option FieldRange :=
  if width = addressWidth then some { low := 0, high := maxAddress }
  else if width < 1 then none
  else
    let count := (2 : Int).pow (width - 1).toNat
    match base with
    | some .decimal =>
        if width < 2 then none
        else
          let half := (2 : Int).pow (width - 2).toNat
          some { low := -half, high := count - 1 - half }
    | _ => some { low := 0, high := count - 1 }

/-- What to write into a field instead of a value that is out of its range.  The ends of the
range are counted here once more, from the width and the base. -/
def hint (width : Int) (base : Option Base) : String :=
  if width = addressWidth then "address operands must be in x0000..xFFFF"
  else
    let high := (2 : Int).pow (width - 1).toNat - 1
    match base with
    | some .decimal =>
        let offset := (2 : Int).pow (width - 1 - 1).toNat
        "decimal operands in a " ++ Text.decimal width ++ "-bit field must be in "
          ++ Text.decimal (0 - offset) ++ ".." ++ Text.decimal (high - offset)
    | _ =>
        "operands in a " ++ Text.decimal width ++ "-bit field must be in x0..x"
          ++ Text.hexUpper 0 high

end FieldRange

/-- The lowest `width` bits of a value. -/
def lowBits (width : Int) (value : Int) : Nat :=
  (value % (2 : Int).pow width.toNat).toNat

theorem wordOf_lt (value : Int) : wordOf value < 0x10000 := by
  simp only [wordOf, wordCount]
  omega

end Lc3Assembler
