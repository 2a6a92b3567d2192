import Lc3Assembler.Operation.Slot

/-!
# Assembler directives

A directive takes a number of operands between two bounds, each of one of its
kinds.
-/

namespace Lc3Assembler

/-- The assembler directives. -/
inductive Directive where
  | orig
  | endSegment
  | equ
  | fill
  | strz
  | blkw
  | ent
  | ext
  deriving DecidableEq, Repr

namespace Directive

/-- The most operands any record has. -/
def maxOperands : Nat := 3

/-- Every directive, in the order of the directive table. -/
def all : List Directive :=
  [.orig, .endSegment, .equ, .fill, .strz, .blkw, .ent, .ext]

def name : Directive → String
  | .orig => ".ORIG"
  | .endSegment => ".END"
  | .equ => ".EQU"
  | .fill => ".FILL"
  | .strz => ".STRZ"
  | .blkw => ".BLKW"
  | .ent => ".ENT"
  | .ext => ".EXT"

def ofName? (name : String) : Option Directive :=
  all.find? fun directive => directive.name == name

/-- The fewest and the most operands. -/
def arity : Directive → Nat × Nat
  | .orig => (0, 1)
  | .endSegment => (0, 1)
  | .equ => (1, 1)
  | .fill => (1, 1)
  | .strz => (1, 1)
  | .blkw => (1, 1)
  | .ent => (1, maxOperands)
  | .ext => (1, maxOperands)

def kinds : Directive → List Kind
  | .orig => [.immediate]
  | .endSegment => [.immediate, .symbol]
  | .equ => [.immediate, .symbol]
  | .fill => [.immediate, .symbol]
  | .strz => [.string]
  | .blkw => [.immediate, .symbol]
  | .ent => [.symbol]
  | .ext => [.symbol]

/-- Whether the operand may be a relocatable symbol. -/
def relative : Directive → Bool
  | .endSegment | .equ | .fill => true
  | _ => false

/-- Whether the directive takes up storage. -/
def storage : Directive → Bool
  | .fill | .strz | .blkw => true
  | _ => false

def allows (directive : Directive) (kind : Kind) : Bool :=
  directive.kinds.contains kind

/-- The texts of the kinds, sorted. -/
def expected (directive : Directive) : List String :=
  Text.sorted (directive.kinds.map Kind.text)

theorem mem_all (directive : Directive) : directive ∈ all := by
  cases directive <;> decide

@[simp] theorem ofName?_name (directive : Directive) :
    ofName? directive.name = some directive := by
  cases directive <;> decide

theorem name_of_ofName? {name : String} {directive : Directive}
    (found : ofName? name = some directive) : directive.name = name := by
  have test := List.find?_some found
  simpa using test

end Directive

end Lc3Assembler
