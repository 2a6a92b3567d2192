import Lc3Assembler.Proofs.MemoryLayout

/-!
# Programs that agree on the meaning of operands

Encoding a record looks at a program only to resolve operands.  Two programs
that agree on the operands of a record therefore encode it alike, whatever else
their tables hold.
-/

namespace Lc3Assembler

/-- Whether encoding a record looks at what its operands mean. -/
def Record.isResolved (record : Record) : Bool :=
  match record.operation with
  | .instruction _ => true
  | .directive .fill => true
  | _ => false

namespace Program

/-- Two programs give the operands of a record the same meaning. -/
structure AgreesOn (program other : Program) (record : Record) : Prop where
  resolve : ∀ operand ∈ record.operands,
    other.resolve record.line operand = program.resolve record.line operand
  relocation : ∀ operand ∈ record.operands, ∀ slot,
    other.relocation operand slot = program.relocation operand slot

theorem packOperands_congr {program other : Program} {record : Record} {slots : List Slot}
    {operands : List Operand} {word : Nat}
    (resolve : ∀ operand ∈ operands,
      other.resolve record.line operand = program.resolve record.line operand) :
    other.packOperands record slots operands word =
      program.packOperands record slots operands word := by
  induction operands generalizing slots word with
  | nil => cases slots <;> rfl
  | cons operand operands induction =>
      have tail : ∀ candidate ∈ operands,
          other.resolve record.line candidate = program.resolve record.line candidate := by
        intro candidate member
        exact resolve candidate (by simp [member])
      cases slots with
      | nil => rfl
      | cons slot slots => simp only [packOperands, resolve operand (by simp), induction tail]

theorem lastRelocation_congr {program other : Program} {slots : List Slot}
    {operands : List Operand}
    (relocation : ∀ operand ∈ operands, ∀ slot,
      other.relocation operand slot = program.relocation operand slot) :
    other.lastRelocation slots operands = program.lastRelocation slots operands := by
  induction operands generalizing slots with
  | nil => cases slots <;> rfl
  | cons operand operands induction =>
      cases slots with
      | nil => rfl
      | cons slot slots =>
          cases operands with
          | nil => exact relocation operand (by simp) slot
          | cons second operands =>
              apply induction
              intro candidate member
              exact relocation candidate (List.mem_cons_of_mem _ member)

namespace AgreesOn

variable {program other : Program} {record : Record}

theorem encodeInstruction (agrees : program.AgreesOn other record) (mnemonic : Mnemonic) :
    other.encodeInstruction record mnemonic = program.encodeInstruction record mnemonic := by
  rw [Program.encodeInstruction, Program.encodeInstruction, packOperands_congr agrees.resolve,
    lastRelocation_congr agrees.relocation]

theorem encodeFill (agrees : program.AgreesOn other record) :
    other.encodeFill record = program.encodeFill record := by
  unfold Program.encodeFill Program.firstOperand
  cases operands : record.operands with
  | nil => rfl
  | cons operand _ =>
      have member : operand ∈ record.operands := by simp [operands]
      simp only [ok_bind, agrees.resolve operand member, agrees.relocation operand member]

end AgreesOn

theorem encodeRecord_congr {program other : Program} {record : Record}
    (agrees : record.isResolved = true → program.AgreesOn other record) :
    other.encodeRecord record = program.encodeRecord record := by
  cases operation : record.operation with
  | instruction mnemonic =>
      simp only [operation, encodeRecord]
      exact (agrees (by simp [Record.isResolved, operation])).encodeInstruction mnemonic
  | unknown name => simp only [operation, encodeRecord]
  | directive order =>
      cases order with
      | fill =>
          simp only [operation, encodeRecord]
          exact (agrees (by simp [Record.isResolved, operation])).encodeFill
      | orig | endSegment | equ | strz | blkw | ent | ext => simp only [operation, encodeRecord]

theorem encodeRecords_congr {program other : Program} {records : List Record}
    (agrees : ∀ record ∈ records, record.isResolved = true → program.AgreesOn other record) :
    other.encodeRecords records = program.encodeRecords records := by
  induction records with
  | nil => rfl
  | cons record records induction =>
      have tail : ∀ candidate ∈ records,
          candidate.isResolved = true → program.AgreesOn other candidate := by
        intro candidate member
        exact agrees candidate (by simp [member])
      simp only [encodeRecords, encodeRecord_congr (agrees record (by simp)), induction tail]

theorem encodeEntries_congr {program other : Program} {declarations : List Declaration}
    (symbols : ∀ declaration ∈ declarations,
      other.symbol? declaration.name = program.symbol? declaration.name) :
    other.encodeEntries declarations = program.encodeEntries declarations := by
  induction declarations with
  | nil => rfl
  | cons declaration declarations induction =>
      have tail : ∀ candidate ∈ declarations,
          other.symbol? candidate.name = program.symbol? candidate.name := by
        intro candidate member
        exact symbols candidate (by simp [member])
      simp only [encodeEntries, encodeEntry, requireSymbol, symbols declaration (by simp),
        induction tail]

/-- A record that was encoded has operands with a meaning. -/
theorem resolve_of_encodeRecord {program : Program} {record : Record} {output : Output}
    (wellFormed : record.WellFormed) (resolved : record.isResolved = true)
    (outcome : program.encodeRecord record = .ok output) :
    ∀ operand ∈ record.operands, ∃ meaning,
      program.resolve record.line operand = .ok meaning := by
  have accepted := wellFormed.accepted
  unfold Record.isResolved at resolved
  split at resolved
  · rename_i mnemonic operation
    simp only [encodeRecord, operation] at outcome
    obtain ⟨_, _, _, packing, _⟩ := encodeInstruction_eq_ok outcome
    exact resolve_of_packOperands packing
  · rename_i operation
    rw [operation] at accepted
    simp only [encodeRecord, operation, encodeFill, bind_eq_ok_iff] at outcome
    obtain ⟨operand, first, meaning, resolution, _⟩ := outcome
    rw [firstOperand_of_arity accepted.2.1 first]
    intro candidate member
    rw [List.mem_singleton.mp member]
    exact ⟨meaning, resolution⟩
  · cases resolved

/-- The output of one more record follows that of the others. -/
theorem encodeRecords_concat {program : Program} {records : List Record} {record : Record}
    {output : Output} (encoded : program.encodeRecord record = .ok output) :
    program.encodeRecords (records ++ [record]) =
      (fun body => body.append output) <$> program.encodeRecords records := by
  induction records with
  | nil => simp [encodeRecords, encoded, Output.append, Output.empty]
  | cons first records induction =>
      rw [List.cons_append, encodeRecords, encodeRecords, induction]
      cases program.encodeRecord first with
      | error failure => rfl
      | ok head =>
          cases program.encodeRecords records with
          | error failure => rfl
          | ok body => simp [Output.append]

end Program

end Lc3Assembler
