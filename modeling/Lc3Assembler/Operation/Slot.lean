import Lc3Assembler.Operand
import Lc3Assembler.Text.Sorted

/-!
# Operand slots

A machine instruction packs each operand into a slot: a bit position, a width
and the categories of operands it takes.  A category stands for the kinds of
operands that make sense there.
-/

namespace Lc3Assembler

/-- What an operand slot is for. -/
inductive Category where
  | address
  | register
  | immediate
  | index
  | string
  | trapVector
  deriving DecidableEq, Repr

namespace Category

/-- What a message calls the category. -/
def text : Category → String
  | .address => "address"
  | .register => "register"
  | .immediate => "immediate"
  | .index => "index"
  | .string => "string"
  | .trapVector => "trap vector"

/-- The kinds of operands a category takes.  None takes a malformed one. -/
def allows : Category → Kind → Bool
  | .address, .immediate => true
  | .address, .literal => true
  | .address, .symbol => true
  | .register, .register => true
  | .immediate, .immediate => true
  | .immediate, .symbol => true
  | .index, .immediate => true
  | .index, .symbol => true
  | .string, .string => true
  | .trapVector, .immediate => true
  | .trapVector, .symbol => true
  | _, _ => false

end Category

/-- One operand slot.  A relative slot holds a whole page offset, which a
linker relocates. -/
structure Slot where
  position : Int
  width : Int
  categories : List Category
  relative : Bool
  deriving DecidableEq, Repr

namespace Slot

/-- A register number of three bits. -/
def register (position : Int) : Slot :=
  { position, width := 3, categories := [.register], relative := false }

/-- A page offset in the lowest bits. -/
def address : Slot :=
  { position := 0, width := addressWidth, categories := [.address], relative := true }

/-- An index added to a base register. -/
def index : Slot :=
  { position := 0, width := 6, categories := [.index], relative := false }

/-- A register or a five-bit immediate, told apart by the top bit. -/
def registerOrImmediate : Slot :=
  { position := 0, width := 6, categories := [.register, .immediate], relative := false }

def trapVector : Slot :=
  { position := 0, width := 8, categories := [.trapVector], relative := false }

/-- The whole word of a data directive. -/
def word : Slot :=
  { position := 0, width := dataWidth, categories := [.address], relative := true }

def allows (slot : Slot) (kind : Kind) : Bool :=
  slot.categories.any fun category => category.allows kind

/-- The texts of the categories, sorted. -/
def expected (slot : Slot) : List String :=
  Text.sorted (slot.categories.eraseDups.map Category.text)

/-- As many one bits as the slot is wide; a negative width has no mask. -/
def mask? (slot : Slot) : Option Int :=
  if slot.width < 0 then none else some ((2 : Int).pow slot.width.toNat - 1)

/-- The bits a value contributes to the word. -/
def pack (slot : Slot) (value : Int) : Nat :=
  lowBits slot.width value <<< slot.position.toNat

/-- No slot takes a malformed operand. -/
theorem allows_malformed (slot : Slot) : slot.allows .malformed = false := by
  simp only [allows, List.any_eq_false]
  intro category _
  cases category <;> decide

end Slot

end Lc3Assembler
