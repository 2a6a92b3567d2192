import Lc3Assembler.Operation.Slot

/-!
# Machine instructions

Every mnemonic has a template, a word with the fixed bits set, and the slots
of its operands in order.  The slots of an instruction never overlap each
other or the set bits of the template.
-/

namespace Lc3Assembler

/-- The machine instructions. -/
inductive Mnemonic where
  | add
  | and
  | brn
  | brz
  | brp
  | brnz
  | brnp
  | brzp
  | brnzp
  | dbug
  | jmp
  | jsr
  | jmpr
  | jsrr
  | ld
  | ldi
  | lea
  | st
  | sti
  | ldr
  | str
  | not
  | ret
  | trap
  deriving DecidableEq, Repr

namespace Mnemonic

/-- Every mnemonic, in the order of the instruction table. -/
def all : List Mnemonic :=
  [.add, .and, .brn, .brz, .brp, .brnz, .brnp, .brzp, .brnzp, .dbug, .jmp, .jsr, .jmpr, .jsrr,
   .ld, .ldi, .lea, .st, .sti, .ldr, .str, .not, .ret, .trap]

def name : Mnemonic → String
  | .add => "ADD"
  | .and => "AND"
  | .brn => "BRN"
  | .brz => "BRZ"
  | .brp => "BRP"
  | .brnz => "BRNZ"
  | .brnp => "BRNP"
  | .brzp => "BRZP"
  | .brnzp => "BRNZP"
  | .dbug => "DBUG"
  | .jmp => "JMP"
  | .jsr => "JSR"
  | .jmpr => "JMPR"
  | .jsrr => "JSRR"
  | .ld => "LD"
  | .ldi => "LDI"
  | .lea => "LEA"
  | .st => "ST"
  | .sti => "STI"
  | .ldr => "LDR"
  | .str => "STR"
  | .not => "NOT"
  | .ret => "RET"
  | .trap => "TRAP"

def ofName? (name : String) : Option Mnemonic :=
  all.find? fun mnemonic => mnemonic.name == name

/-- The word with the fixed bits set. -/
def template : Mnemonic → Nat
  | .add => 0x1000
  | .and => 0x5000
  | .brn => 0x0800
  | .brz => 0x0400
  | .brp => 0x0200
  | .brnz => 0x0C00
  | .brnp => 0x0A00
  | .brzp => 0x0600
  | .brnzp => 0x0E00
  | .dbug => 0x8000
  | .jmp => 0x4000
  | .jsr => 0x4800
  | .jmpr => 0xC000
  | .jsrr => 0xC800
  | .ld => 0x2000
  | .ldi => 0xA000
  | .lea => 0xE000
  | .st => 0x3000
  | .sti => 0xB000
  | .ldr => 0x6000
  | .str => 0x7000
  | .not => 0x9000
  | .ret => 0xD000
  | .trap => 0xF000

/-- The operand slots, in operand order. -/
def slots : Mnemonic → List Slot
  | .add | .and => [.register 9, .register 6, .registerOrImmediate]
  | .brn | .brz | .brp | .brnz | .brnp | .brzp | .brnzp => [.address]
  | .jmp | .jsr => [.address]
  | .jmpr | .jsrr => [.register 6, .index]
  | .ld | .ldi | .lea | .st | .sti => [.register 9, .address]
  | .ldr | .str => [.register 9, .register 6, .index]
  | .not => [.register 9, .register 6]
  | .trap => [.trapVector]
  | .dbug | .ret => []

/-- The instructions whose last slot tells a register from an immediate by
its top bit. -/
def flagsImmediate : Mnemonic → Bool
  | .add | .and => true
  | _ => false

/-- The bit that marks an immediate. -/
def immediateFlag : Nat := 0x20

/-- A slot by its index; a negative index counts from the last slot. -/
def slot? (mnemonic : Mnemonic) (index : Int) : Option Slot :=
  let slots := mnemonic.slots
  let position := if index < 0 then index + slots.length else index
  if position < 0 then none else slots[position.toNat]?

/-- Whether the last operand may be a relocatable address. -/
def relative (mnemonic : Mnemonic) : Bool :=
  (mnemonic.slots.getLast?.map Slot.relative).getD false

/-- A one-line description of the table entry. -/
def describe (mnemonic : Mnemonic) : String :=
  "MachineOp(" ++ mnemonic.name ++ ", template=x" ++ Text.hexUpper 4 mnemonic.template
    ++ ", args=" ++ Text.decimal mnemonic.slots.length ++ ")"

theorem mem_all (mnemonic : Mnemonic) : mnemonic ∈ all := by
  cases mnemonic <;> decide

@[simp] theorem ofName?_name (mnemonic : Mnemonic) : ofName? mnemonic.name = some mnemonic := by
  cases mnemonic <;> decide

theorem name_of_ofName? {name : String} {mnemonic : Mnemonic}
    (found : ofName? name = some mnemonic) : mnemonic.name = name := by
  have test := List.find?_some found
  simpa using test

end Mnemonic

end Lc3Assembler
