import Lc3Assembler.Operation.Directive
import Lc3Assembler.Operation.Mnemonic

/-!
# Operations

The opcode field of a record names a machine instruction or a directive.  A
name that is neither is kept, so that every record shows what was written.
-/

namespace Lc3Assembler

/-- What an opcode field says. -/
inductive Operation where
  | instruction (mnemonic : Mnemonic)
  | directive (order : Directive)
  | unknown (name : String)
  deriving DecidableEq, Repr

namespace Operation

/-- Look a name up in both tables. -/
def ofName (name : String) : Operation :=
  match Mnemonic.ofName? name, Directive.ofName? name with
  | some mnemonic, _ => .instruction mnemonic
  | none, some order => .directive order
  | none, none => .unknown name

def name : Operation → String
  | .instruction mnemonic => mnemonic.name
  | .directive order => order.name
  | .unknown name => name

/-- The fewest and the most operands; unknown operations have none to count. -/
def arity? : Operation → Option (Nat × Nat)
  | .instruction mnemonic => some (mnemonic.slots.length, mnemonic.slots.length)
  | .directive order => some order.arity
  | .unknown _ => none

/-- Whether the last operand may be a relocatable symbol. -/
def relative? : Operation → Option Bool
  | .instruction mnemonic => some mnemonic.relative
  | .directive order => some order.relative
  | .unknown _ => none

/-- The template of a machine instruction. -/
def template? : Operation → Option Nat
  | .instruction mnemonic => some mnemonic.template
  | _ => none

@[simp] theorem name_ofName (text : String) : (ofName text).name = text := by
  unfold ofName
  split
  · exact Mnemonic.name_of_ofName? (by assumption)
  · exact Directive.name_of_ofName? (by assumption)
  · rfl

end Operation

end Lc3Assembler
