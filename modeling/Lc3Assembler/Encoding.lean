import Lc3Assembler.Listing
import Lc3Assembler.ObjectFile

/-!
# Encoding programs

A frozen program is encoded record by record into object records and listing
rows.  An operand is resolved to a value, checked against the field it goes
into and packed.  The first operand that cannot be encoded stops the encoding.
-/

namespace Lc3Assembler

/-- The records and rows of a program, or of a part of it. -/
structure Output where
  object : List ObjectRecord
  listing : List ListingRow
  deriving DecidableEq, Repr

namespace Output

/-- Nothing. -/
def empty : Output :=
  { object := [], listing := [] }

/-- One output after another. -/
def append (first second : Output) : Output :=
  { object := first.object ++ second.object, listing := first.listing ++ second.listing }

def objectLines (output : Output) : List String :=
  output.object.map ObjectRecord.text

def listingLines (output : Output) : List String :=
  output.listing.map ListingRow.text

def objectText (output : Output) : String :=
  Text.unlines output.objectLines

def listingText (output : Output) : String :=
  Text.unlines output.listingLines

end Output

/-- What an operand stands for: a value, a value that another segment knows,
or none. -/
inductive Resolved where
  | value (value : Int)
  | external
  | nothing
  deriving DecidableEq, Repr

namespace Program

/-- Resolve an operand on some line. -/
def resolve (program : Program) (line : Int) (operand : Operand) : Except Failure Resolved :=
  match operand.form with
  | .register number => .ok (.value number)
  | .immediate _ value => .ok (.value value)
  | .literal _ value =>
      match program.literal? value with
      | some literal => .ok (.value literal.address)
      | none => .error (.reject line (.unpooledLiteral operand.text))
  | .symbol =>
      match program.symbol? operand.text with
      | some symbol => .ok (.value symbol.value)
      | none =>
          if program.isExternal operand.text then .ok .external
          else .error (.reject line (.undefinedSymbol operand.text none))
  | .string => .ok .nothing
  | .malformed => .ok .nothing

/-- The bases of immediates decide their range; symbols have none. -/
def checkRange (line : Int) (operand : Operand) (value : Int) (slot : Slot) :
    Except Failure Unit :=
  match operand.form with
  | .immediate base _ =>
      match FieldRange.of? slot.width (some base) with
      | none => .error (.misuse .narrowField)
      | some range =>
          if range.contains value then .ok ()
          else .error (.reject line (.immediateRange operand.text slot.width (some base)))
  | .symbol =>
      match FieldRange.of? slot.width none with
      | none => .error (.misuse .narrowField)
      | some range =>
          if range.contains value then .ok ()
          else .error (.reject line (.symbolRange operand.text value slot.width))
  | _ => .ok ()

/-- The location of a record that needs one. -/
def locationOf (record : Record) (use : LocationUse) : Except Failure Int :=
  match record.location with
  | some location => .ok location
  | none => .error (.misuse (.noLocation use))

/-- The value of an operand that needs one. -/
def valueOf (resolved : Resolved) (use : ValueUse) : Except Failure Int :=
  match resolved with
  | .value value => .ok value
  | .external => .ok 0
  | .nothing => .error (.misuse (.noValue use))

/-- An address in an instruction lies on the page of the next instruction. -/
def checkPage (record : Record) (operand : Operand) (resolved : Resolved) (slot : Slot) :
    Except Failure Unit :=
  if slot.width = addressWidth ∧ operand.kind ≠ .register then do
    let location ← locationOf record .next
    let address ← valueOf resolved .page
    if pageOf (location + 1) = pageOf address then .ok ()
    else .error (.reject record.line (.page address location))
  else .ok ()

/-- Range first, then page.  An external symbol has no value to check, but has
to be the last operand. -/
def checkField (record : Record) (operand : Operand) (resolved : Resolved) (slot : Slot)
    (isLast : Bool) : Except Failure Unit :=
  match resolved with
  | .external =>
      if isLast then .ok ()
      else .error (.reject record.line (.externalNotFinal operand.text))
  | .value value => do
      checkRange record.line operand value slot
      checkPage record operand resolved slot
  | .nothing => checkPage record operand resolved slot

/-- What a linker has to do with the word of a last operand. -/
def relocation (program : Program) (operand : Operand) (slot : Slot) : Relocation :=
  if !program.relocatable then .fixed
  else
    match operand.form with
    | .literal _ _ => .address
    | .symbol =>
        match program.symbol? operand.text with
        | some symbol =>
            if symbol.relocatable then
              if addressWidth ≤ slot.width then .address else .field
            else .fixed
        | none =>
            if program.isExternal operand.text then .external slot.width operand.text
            else .fixed
    | _ => .fixed

/-- Pack the operands of an instruction into their slots, on top of the bits
that are set already. -/
def packOperands (program : Program) (record : Record) :
    List Slot → List Operand → Nat → Except Failure Nat
  | _, [], word => .ok word
  | [], _ :: _, _ => .error (.misuse .noSuchOperand)
  | slot :: slots, operand :: operands, word => do
      let resolved ← program.resolve record.line operand
      checkField record operand resolved slot operands.isEmpty
      let value ← valueOf resolved .bits
      packOperands program record slots operands (word ||| slot.pack value)

/-- The flag that the last operand is an immediate, where there is one. -/
def flagImmediate (mnemonic : Mnemonic) (operands : List Operand) (word : Nat) :
    Except Failure Nat :=
  if mnemonic.flagsImmediate then
    match operands.getLast? with
    | none => .error (.misuse .noSuchOperand)
    | some operand =>
        .ok (if operand.kind = .register then word else word ||| Mnemonic.immediateFlag)
  else .ok word

/-- The relocation of the last operand and its slot. -/
def lastRelocation (program : Program) : List Slot → List Operand → Relocation
  | slot :: _, [operand] => program.relocation operand slot
  | _ :: slots, _ :: operands => lastRelocation program slots operands
  | _, _ => .fixed

def oneWord (record : Record) (address : Int) (word : Nat) (relocation : Relocation) : Output :=
  { object := [.word address word relocation]
    listing := [.source (.word address word) record] }

def encodeInstruction (program : Program) (record : Record) (mnemonic : Mnemonic) :
    Except Failure Output := do
  let packed ← program.packOperands record mnemonic.slots record.operands mnemonic.template
  let word ← flagImmediate mnemonic record.operands packed
  let address ← locationOf record .print
  return oneWord record address word (program.lastRelocation mnemonic.slots record.operands)

def firstOperand (record : Record) : Except Failure Operand :=
  match record.operands with
  | operand :: _ => .ok operand
  | [] => .error (.misuse .noSuchOperand)

/-- A data word: an immediate has to fit, and an external symbol counts as
zero. -/
def encodeFill (program : Program) (record : Record) : Except Failure Output := do
  let operand ← firstOperand record
  let resolved ← program.resolve record.line operand
  if let .immediate _ value := operand.form then
    if !fitsWord value then
      throw (.reject record.line (.fillOverflow operand.text))
  let value ← valueOf resolved .bits
  let address ← locationOf record .print
  return oneWord record address (wordOf value) (program.relocation operand Slot.word)

/-- The words of a string: one per character, and a zero word. -/
def stringWords (body : List Char) : List Nat :=
  body.map (fun c => wordOf c.toNat) ++ [0]

def wordsFrom (address : Int) : List Nat → List (Int × Nat)
  | [] => []
  | word :: words => (address, word) :: wordsFrom (address + 1) words

/-- A string: the first row shows the record, the others continue it. -/
def encodeString (record : Record) : Except Failure Output := do
  let operand ← firstOperand record
  match operand.stringBody? with
  | none => throw (.misuse (.notString operand.text))
  | some body =>
      let address ← locationOf record .next
      let words := wordsFrom address (stringWords body)
      return {
        object := words.map fun word => .word word.1 word.2 .fixed
        listing :=
          (words.take 1).map (fun word => .source (.word word.1 word.2) record)
            ++ (words.drop 1).map fun word => .continuation word.1 word.2 }

def rowOnly (storage : Storage) (record : Record) : Output :=
  { object := [], listing := [.source storage record] }

def encodeRecord (program : Program) (record : Record) : Except Failure Output :=
  match record.operation with
  | .instruction mnemonic => program.encodeInstruction record mnemonic
  | .directive .fill => program.encodeFill record
  | .directive .strz => encodeString record
  | .directive .blkw => do
      let address ← locationOf record .print
      return rowOnly (.reserved address) record
  | .directive _ => .ok (rowOnly .none record)
  | .unknown name =>
      if name.toList.head? = some '.' then .ok (rowOnly .none record)
      else .error (.misuse (.noSuchInstruction name))

def encodeRecords (program : Program) : List Record → Except Failure Output
  | [] => .ok .empty
  | record :: records => do
      let first ← program.encodeRecord record
      let others ← encodeRecords program records
      return first.append others

def encodeEntry (program : Program) (declaration : Declaration) :
    Except Failure ObjectRecord := do
  let symbol ← program.requireSymbol declaration.name
  return .entry symbol.name symbol.value symbol.relocatable

/-- The entry points of declared names, in order. -/
def encodeEntries (program : Program) : List Declaration → Except Failure (List ObjectRecord)
  | [] => .ok []
  | declaration :: declarations => do
      let first ← program.encodeEntry declaration
      let others ← encodeEntries program declarations
      return first :: others

def encodePool (literals : List Literal) : Output :=
  { object := literals.map fun literal => .word literal.address literal.word .fixed
    listing := literals.map fun literal => .literal literal.address literal.word }

/-- Encode a frozen program. -/
def encode (program : Program) : Except Failure Output := do
  if !program.frozen then
    throw (.misuse .notFrozen)
  let entries ← program.encodeEntries program.entries
  let body ← program.encodeRecords program.records
  let stored := body.append (encodePool program.literals)
  return {
    object :=
      .header program.segment program.firstAddress program.length
        :: entries ++ program.externals.map (fun declaration => .external declaration.name)
        ++ stored.object ++ [.start program.execAddress]
    listing := stored.listing }

end Program

end Lc3Assembler
