import Lc3Assembler.Proofs.Renumbering

/-!
# Encoding a program whose lines are numbered differently

A renumbered program has the object records of the program, and its listing
differs only in the numbers that are shown.  An error that stops the encoding is
the same one, reported for the other number.
-/

namespace Lc3Assembler

def ListingRow.renumbered (number : Int → Int) : ListingRow → ListingRow
  | .source storage record => .source storage (record.renumbered number)
  | row => row

def Output.renumbered (number : Int → Int) (output : Output) : Output :=
  { output with listing := output.listing.map (ListingRow.renumbered number) }

variable {number : Int → Int}

theorem Output.append_renumbered (first second : Output) :
    (first.renumbered number).append (second.renumbered number) =
      (first.append second).renumbered number := by
  simp [Output.append, Output.renumbered]

namespace Program

theorem resolve_renumbered (program : Program) (line : Int) (operand : Operand) :
    (program.renumbered number).resolve (number line) operand =
      renumberedOutcome number id (program.resolve line operand) := by
  have pooled (value : Int) :
      (program.renumbered number).literal? value = program.literal? value := rfl
  unfold resolve
  cases operand.form with
  | literal base value =>
      simp only [pooled]
      cases program.literal? value with
      | some literal => rfl
      | none => rfl
  | symbol =>
      simp only [symbol?_renumbered, isExternal_renumbered]
      cases program.symbol? operand.text with
      | some symbol => rfl
      | none =>
          simp only [Option.map_none, renumberedOutcome_ite]
          rfl
  | _ => rfl

theorem checkRange_renumbered (line : Int) (operand : Operand) (value : Int) (slot : Slot) :
    checkRange (number line) operand value slot =
      renumberedOutcome number id (checkRange line operand value slot) := by
  unfold checkRange
  cases operand.form with
  | immediate base written =>
      simp only
      cases FieldRange.of? slot.width (some base) with
      | none => rfl
      | some range =>
          simp only [renumberedOutcome_ite]
          rfl
  | symbol =>
      simp only
      cases FieldRange.of? slot.width none with
      | none => rfl
      | some range =>
          simp only [renumberedOutcome_ite]
          rfl
  | _ => rfl

theorem locationOf_renumbered (record : Record) (use : LocationUse) :
    locationOf (record.renumbered number) use =
      renumberedOutcome number id (locationOf record use) := by
  obtain ⟨line, operation, label, operands, location, size⟩ := record
  cases location with
  | none => rfl
  | some location => rfl

theorem valueOf_renumbered (resolved : Resolved) (use : ValueUse) :
    valueOf resolved use = renumberedOutcome number id (valueOf resolved use) := by
  cases resolved with
  | value value => rfl
  | external => rfl
  | nothing => rfl

theorem checkPage_renumbered (record : Record) (operand : Operand) (resolved : Resolved)
    (slot : Slot) :
    checkPage (record.renumbered number) operand resolved slot =
      renumberedOutcome number id (checkPage record operand resolved slot) := by
  rw [checkPage, checkPage, renumberedOutcome_ite]
  congr 1
  apply renumberedOutcome_bind (locationOf_renumbered record .next)
  intro location
  apply renumberedOutcome_bind (valueOf_renumbered resolved .page)
  intro address
  rw [renumberedOutcome_ite]
  rfl

theorem checkField_renumbered (record : Record) (operand : Operand) (resolved : Resolved)
    (slot : Slot) (isLast : Bool) :
    checkField (record.renumbered number) operand resolved slot isLast =
      renumberedOutcome number id (checkField record operand resolved slot isLast) := by
  cases resolved with
  | external =>
      cases isLast with
      | true => rfl
      | false => rfl
  | value value =>
      exact renumberedOutcome_bind (checkRange_renumbered record.line operand value slot)
        fun _ => checkPage_renumbered record operand (.value value) slot
  | nothing => exact checkPage_renumbered record operand .nothing slot

theorem relocation_renumbered (program : Program) (operand : Operand) (slot : Slot) :
    (program.renumbered number).relocation operand slot = program.relocation operand slot := by
  simp only [relocation, symbol?_renumbered, isExternal_renumbered]
  cases program.symbol? operand.text with
  | none => rfl
  | some symbol => rfl

theorem packOperands_renumbered (program : Program) (record : Record) (slots : List Slot)
    (operands : List Operand) (word : Nat) :
    (program.renumbered number).packOperands (record.renumbered number) slots operands word =
      renumberedOutcome number id (program.packOperands record slots operands word) := by
  induction operands generalizing slots word with
  | nil =>
      cases slots with
      | nil => rfl
      | cons slot slots => rfl
  | cons operand operands induction =>
      cases slots with
      | nil => rfl
      | cons slot slots =>
          apply renumberedOutcome_bind (resolve_renumbered program record.line operand)
          intro resolved
          apply renumberedOutcome_bind
            (checkField_renumbered record operand resolved slot operands.isEmpty)
          intro _
          apply renumberedOutcome_bind (valueOf_renumbered resolved .bits)
          intro value
          exact induction slots (word ||| slot.pack value)

theorem flagImmediate_renumbered (mnemonic : Mnemonic) (operands : List Operand) (word : Nat) :
    flagImmediate mnemonic operands word =
      renumberedOutcome number id (flagImmediate mnemonic operands word) := by
  rw [flagImmediate, renumberedOutcome_ite]
  cases operands.getLast? with
  | none => rfl
  | some operand => rfl

theorem lastRelocation_renumbered (program : Program) (slots : List Slot)
    (operands : List Operand) :
    (program.renumbered number).lastRelocation slots operands =
      program.lastRelocation slots operands := by
  induction slots generalizing operands with
  | nil => rfl
  | cons slot slots induction =>
      match operands with
      | [] => rfl
      | [operand] => exact relocation_renumbered program operand slot
      | _ :: second :: others => exact induction (second :: others)

theorem encodeInstruction_renumbered (program : Program) (record : Record)
    (mnemonic : Mnemonic) :
    (program.renumbered number).encodeInstruction (record.renumbered number) mnemonic =
      renumberedOutcome number (Output.renumbered number)
        (program.encodeInstruction record mnemonic) := by
  apply renumberedOutcome_bind
    (packOperands_renumbered program record mnemonic.slots record.operands mnemonic.template)
  intro packed
  apply renumberedOutcome_bind (flagImmediate_renumbered mnemonic record.operands packed)
  intro word
  apply renumberedOutcome_bind (locationOf_renumbered record .print)
  intro address
  rw [lastRelocation_renumbered]
  rfl

theorem firstOperand_renumbered (record : Record) :
    firstOperand (record.renumbered number) =
      renumberedOutcome number id (firstOperand record) := by
  obtain ⟨line, operation, label, operands, location, size⟩ := record
  cases operands with
  | nil => rfl
  | cons operand operands => rfl

theorem encodeFill_renumbered (program : Program) (record : Record) :
    (program.renumbered number).encodeFill (record.renumbered number) =
      renumberedOutcome number (Output.renumbered number) (program.encodeFill record) := by
  apply renumberedOutcome_bind (firstOperand_renumbered record)
  intro operand
  apply renumberedOutcome_bind (resolve_renumbered program record.line operand)
  intro resolved
  have stored :
      (do
        let value ← valueOf resolved .bits
        let address ← locationOf (record.renumbered number) .print
        return oneWord (record.renumbered number) address (wordOf value)
          ((program.renumbered number).relocation operand Slot.word)) =
        renumberedOutcome number (Output.renumbered number) (do
          let value ← valueOf resolved .bits
          let address ← locationOf record .print
          return oneWord record address (wordOf value)
            (program.relocation operand Slot.word)) := by
    apply renumberedOutcome_bind (valueOf_renumbered resolved .bits)
    intro value
    apply renumberedOutcome_bind (locationOf_renumbered record .print)
    intro address
    rw [relocation_renumbered]
    rfl
  simp only [id]
  cases operand.form with
  | immediate base value =>
      rw [renumberedOutcome_ite, stored]
      rfl
  | _ => exact stored

theorem encodeString_renumbered (record : Record) :
    encodeString (record.renumbered number) =
      renumberedOutcome number (Output.renumbered number) (encodeString record) := by
  apply renumberedOutcome_bind (firstOperand_renumbered record)
  intro operand
  simp only [id]
  cases operand.stringBody? with
  | none => rfl
  | some body =>
      apply renumberedOutcome_bind (locationOf_renumbered record .next)
      intro address
      simp only [pure_eq_ok, renumberedOutcome, Output.renumbered, List.map_append, List.map_map]
      rfl

theorem encodeRecord_renumbered (program : Program) (record : Record) :
    (program.renumbered number).encodeRecord (record.renumbered number) =
      renumberedOutcome number (Output.renumbered number) (program.encodeRecord record) := by
  have operation : (record.renumbered number).operation = record.operation := rfl
  unfold encodeRecord
  rw [operation]
  split
  · exact encodeInstruction_renumbered program record _
  · exact encodeFill_renumbered program record
  · exact encodeString_renumbered record
  · exact renumberedOutcome_bind (locationOf_renumbered record .print) fun _ => rfl
  · rfl
  · rw [renumberedOutcome_ite]
    rfl

theorem encodeRecords_renumbered (program : Program) (records : List Record) :
    (program.renumbered number).encodeRecords (records.map (Record.renumbered number)) =
      renumberedOutcome number (Output.renumbered number) (program.encodeRecords records) := by
  induction records with
  | nil => rfl
  | cons record records induction =>
      apply renumberedOutcome_bind (encodeRecord_renumbered program record)
      intro first
      apply renumberedOutcome_bind induction
      intro others
      exact congrArg Except.ok (Output.append_renumbered first others)

theorem encodeEntry_renumbered (program : Program) (declaration : Declaration) :
    (program.renumbered number).encodeEntry (declaration.renumbered number) =
      renumberedOutcome number id (program.encodeEntry declaration) := by
  have name : (declaration.renumbered number).name = declaration.name := rfl
  rw [encodeEntry, encodeEntry, requireSymbol, requireSymbol, name, symbol?_renumbered]
  cases program.symbol? declaration.name with
  | some symbol => rfl
  | none => rfl

theorem encodeEntries_renumbered (program : Program) (declarations : List Declaration) :
    (program.renumbered number).encodeEntries
        (declarations.map (Declaration.renumbered number)) =
      renumberedOutcome number id (program.encodeEntries declarations) := by
  induction declarations with
  | nil => rfl
  | cons declaration declarations induction =>
      apply renumberedOutcome_bind (encodeEntry_renumbered program declaration)
      intro first
      apply renumberedOutcome_bind induction
      intro others
      rfl

/-- Encoding a renumbered program is encoding the program, renumbered. -/
theorem encode_renumbered (program : Program) :
    (program.renumbered number).encode =
      renumberedOutcome number (Output.renumbered number) program.encode := by
  have frozen : (program.renumbered number).frozen = program.frozen := rfl
  unfold encode
  rw [frozen]
  cases program.frozen with
  | false => rfl
  | true =>
      apply renumberedOutcome_bind (encodeEntries_renumbered program program.entries)
      intro entries
      apply renumberedOutcome_bind (encodeRecords_renumbered program program.records)
      intro body
      -- Neither the declared names nor the pool show a line.
      have externals :
          (program.externals.map (Declaration.renumbered number)).map
              (fun declaration => ObjectRecord.external declaration.name) =
            program.externals.map (fun declaration => .external declaration.name) := by
        simp [Declaration.renumbered]
      have pool : encodePool program.literals =
          (encodePool program.literals).renumbered number := by
        simp [encodePool, Output.renumbered, ListingRow.renumbered]
      have stored : (body.renumbered number).append (encodePool program.literals) =
          (body.append (encodePool program.literals)).renumbered number := by
        rw [← Output.append_renumbered, ← pool]
      change Except.ok (Output.mk (_ :: entries ++ (program.externals.map _).map _ ++
        ((body.renumbered number).append (encodePool program.literals)).object ++ _)
        ((body.renumbered number).append (encodePool program.literals)).listing) = _
      rw [stored, externals]
      rfl

end Program

end Lc3Assembler
