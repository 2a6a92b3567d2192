import Lc3Assembler.Proofs.Decoding

/-!
# When an encoding fails

The words of a program can be made exactly if every operand that goes into one is
known, fits its field, and lies on the page its instruction executes on.  `Verdict`
states the outcome of an encoder through these three conditions and the order in
which they are checked.  The first record of the source that breaks one is to blame.
-/

namespace Lc3Assembler

theorem LaidOut.located {address after : Int} {records : List Record}
    (laid : LaidOut address records after) :
    ∀ record ∈ records, record.operation.storage = true →
      ∃ location, record.location = some location := by
  induction laid with
  | nil => simp
  | @cons address _ record _ spot _ induction =>
      intro candidate member storage
      rcases List.mem_cons.mp member with first | later
      · subst first
        exact ⟨address, by rw [spot, if_pos storage]⟩
      · exact induction candidate later storage

namespace Mnemonic

/-- Every slot has a range in every base, and none takes a string. -/
theorem slot_ranged (mnemonic : Mnemonic) (base : Option Base) :
    ∀ slot ∈ mnemonic.slots, (FieldRange.of? slot.width base).isSome = true ∧
      slot.allows .string = false := by
  rcases base with _ | base
  · cases mnemonic <;> decide
  · cases base <;> cases mnemonic <;> decide

theorem slots_ne_nil {mnemonic : Mnemonic} (flags : mnemonic.flagsImmediate = true) :
    mnemonic.slots ≠ [] := by
  cases mnemonic with
  | add | and => decide
  | _ => cases flags

theorem operands_ne_nil {mnemonic : Mnemonic} {operands : List Operand}
    (flags : mnemonic.flagsImmediate = true)
    (accepted : (Operation.instruction mnemonic).Accepts operands) : operands ≠ [] := by
  intro empty
  have count := List.Forall₂.length_eq accepted
  rw [empty, List.length_nil] at count
  exact slots_ne_nil flags (List.eq_nil_of_length_eq_zero count)

end Mnemonic

/-- A check of one condition: it passes, or is the cause of a rejection with its code. -/
inductive Decides (condition : Prop) (line : Int) (code : Code) : Except Failure α → Prop where
  | passes {value : α} (holds : condition) : Decides condition line code (.ok value)
  | rejects {cause : Cause} (broken : ¬condition) (coded : cause.code = code) :
      Decides condition line code (.error (.reject line cause))

/-- The outcome of making a word: what is unknown is found before what does not fit, and
this before what lies on another page. -/
inductive Verdict (line : Int) (known fits onPage : Prop) : Except Failure α → Prop where
  | made {value : α} (allKnown : known) (allFit : fits) (allOnPage : onPage) :
      Verdict line known fits onPage (.ok value)
  | unknown {cause : Cause} (someUnknown : ¬known) (coded : cause.code = .undefinedSymbol) :
      Verdict line known fits onPage (.error (.reject line cause))
  | oversized {cause : Cause} (allKnown : known) (someMisfit : ¬fits)
      (coded : cause.code = .operandOutOfBounds) :
      Verdict line known fits onPage (.error (.reject line cause))
  | offPage {cause : Cause} (allKnown : known) (allFit : fits) (someOffPage : ¬onPage)
      (coded : cause.code = .pageMismatch) :
      Verdict line known fits onPage (.error (.reject line cause))

namespace Verdict

variable {line : Int} {known fits onPage : Prop} {first : Except Failure α}
  {next : α → Except Failure β}

/-- The same outcome in equivalent conditions. -/
theorem congr {otherKnown otherFits otherOnPage : Prop} {outcome : Except Failure α}
    (verdict : Verdict line known fits onPage outcome) (sameKnown : known ↔ otherKnown)
    (sameFits : fits ↔ otherFits) (samePage : onPage ↔ otherOnPage) :
    Verdict line otherKnown otherFits otherOnPage outcome := by
  rw [propext sameKnown, propext sameFits, propext samePage] at verdict
  exact verdict

/-- What is known is decided first. -/
theorem of_known (decides : Decides known line .undefinedSymbol first)
    (later : ∀ value, first = .ok value → Verdict line True fits onPage (next value)) :
    Verdict line known fits onPage (first >>= next) := by
  cases decides with
  | rejects broken coded => exact .unknown broken coded
  | @passes value holds =>
      exact (later value rfl).congr (by simp [holds]) .rfl .rfl

/-- What fits is decided next. -/
theorem of_fits (decides : Decides fits line .operandOutOfBounds first)
    (later : ∀ value, first = .ok value → Verdict line True True onPage (next value)) :
    Verdict line True fits onPage (first >>= next) := by
  cases decides with
  | rejects broken coded => exact .oversized trivial broken coded
  | @passes value holds =>
      exact (later value rfl).congr .rfl (by simp [holds]) .rfl

/-- Pages are decided last. -/
theorem of_onPage (decides : Decides onPage line .pageMismatch first)
    (later : ∀ value, first = .ok value → ∃ result, next value = .ok result) :
    Verdict line True True onPage (first >>= next) := by
  cases decides with
  | rejects broken coded => exact .offPage trivial trivial broken coded
  | @passes value holds =>
      obtain ⟨result, succeeds⟩ := later value rfl
      rw [ok_bind, succeeds]
      exact .made trivial trivial holds

/-- Steps that cannot fail keep a verdict. -/
theorem bind (verdict : Verdict line known fits onPage first)
    (later : ∀ value, first = .ok value → ∃ result, next value = .ok result) :
    Verdict line known fits onPage (first >>= next) := by
  cases verdict with
  | @made value allKnown allFit allOnPage =>
      obtain ⟨result, succeeds⟩ := later value rfl
      rw [ok_bind, succeeds]
      exact .made allKnown allFit allOnPage
  | unknown someUnknown coded => exact .unknown someUnknown coded
  | oversized allKnown someMisfit coded => exact .oversized allKnown someMisfit coded
  | offPage allKnown allFit someOffPage coded =>
      exact .offPage allKnown allFit someOffPage coded

end Verdict

/-- The operands of a record that go into words. -/
def Record.values (record : Record) : List Operand :=
  match record.operation with
  | .instruction _ => record.operands
  | .directive .fill => record.operands
  | _ => []

/-- The fields of an instruction with the operands that go into them. -/
def Record.fields (record : Record) : List (Slot × Operand) :=
  match record.operation with
  | .instruction mnemonic => mnemonic.slots.zip record.operands
  | _ => []

namespace Program

variable {program : Program} {record : Record} {slot : Slot} {operand : Operand}
  {line value location : Int}

/-- A symbol is defined or external, a literal is pooled, and anything else is known by
itself. -/
def Knows (program : Program) (operand : Operand) : Prop :=
  match operand.form with
  | .symbol => program.hasSymbol operand.text = true ∨ program.isExternal operand.text = true
  | .literal _ value => program.hasLiteral value = true
  | _ => True

/-- An immediate is in the range of its base, and a symbol that is defined here has a value
in the range without one. -/
def InRange (program : Program) (slot : Slot) (operand : Operand) : Prop :=
  match operand.form with
  | .immediate base value =>
      ∃ range, FieldRange.of? slot.width (some base) = some range ∧ range.contains value = true
  | .symbol =>
      ∀ symbol, program.symbol? operand.text = some symbol →
        ∃ range, FieldRange.of? slot.width none = some range ∧
          range.contains symbol.value = true
  | _ => True

/-- What goes into an address field lies on the page of the next instruction. -/
def OnPage (program : Program) (location : Int) (slot : Slot) (operand : Operand) : Prop :=
  slot.width = addressWidth →
    ∀ value, program.Denotes operand value → pageOf (location + 1) = pageOf value

def KnowsAll (program : Program) (record : Record) : Prop :=
  ∀ operand ∈ record.values, program.Knows operand

/-- Every field takes its operand, and the immediate of a data word is a word. -/
def FitsAll (program : Program) (record : Record) : Prop :=
  (∀ field ∈ record.fields, program.InRange field.1 field.2) ∧
    (record.operation = .directive .fill →
      ∀ operand ∈ record.operands, ∀ base value, operand.form = .immediate base value →
        -0x8000 ≤ value ∧ value ≤ 0xFFFF)

def AllOnPage (program : Program) (record : Record) : Prop :=
  ∀ location, record.location = some location →
    ∀ field ∈ record.fields, program.OnPage location field.1 field.2

/-- Nothing keeps the words of a record from being made. -/
structure Encodable (program : Program) (record : Record) : Prop where
  known : program.KnowsAll record
  fits : program.FitsAll record
  onPage : program.AllOnPage record

/-- The first thing that is wrong with a record, and the code it is reported with. -/
inductive Offends (program : Program) (record : Record) : Code → Prop where
  | unknown (someUnknown : ¬program.KnowsAll record) : Offends program record .undefinedSymbol
  | oversized (known : program.KnowsAll record) (someMisfit : ¬program.FitsAll record) :
      Offends program record .operandOutOfBounds
  | offPage (known : program.KnowsAll record) (fits : program.FitsAll record)
      (someOffPage : ¬program.AllOnPage record) : Offends program record .pageMismatch

theorem resolve_ne_nothing {program : Program} {line : Int} {operand : Operand}
    {resolved : Resolved} (notString : operand.kind ≠ .string)
    (notMalformed : operand.kind ≠ .malformed)
    (outcome : program.resolve line operand = .ok resolved) : resolved ≠ .nothing := by
  intro nothing
  subst nothing
  unfold resolve at outcome
  unfold Operand.kind at notString notMalformed
  split at outcome
  · cases outcome
  · cases outcome
  · split at outcome <;> cases outcome
  · split at outcome
    · cases outcome
    · split at outcome <;> cases outcome
  · rename_i form
    exact notString (by rw [form]; rfl)
  · rename_i form
    exact notMalformed (by rw [form]; rfl)

theorem resolve_decides (notString : operand.kind ≠ .string)
    (notMalformed : operand.kind ≠ .malformed) :
    Decides (program.Knows operand) line .undefinedSymbol (program.resolve line operand) := by
  unfold resolve Knows
  unfold Operand.kind at notString notMalformed
  cases form : operand.form with
  | register number => exact .passes trivial
  | immediate base value => exact .passes trivial
  | literal base value =>
      simp only [hasLiteral]
      cases found : program.literal? value with
      | some literal => exact .passes rfl
      | none => exact .rejects (by simp) rfl
  | symbol =>
      simp only [hasSymbol]
      cases found : program.symbol? operand.text with
      | some symbol => exact .passes (.inl rfl)
      | none =>
          cases external : program.isExternal operand.text with
          | true => exact .passes (.inr rfl)
          | false => exact .rejects (by simp) rfl
  | string => exact absurd (by rw [form]; rfl) notString
  | malformed => exact absurd (by rw [form]; rfl) notMalformed

theorem checkRange_decides (denotes : program.Denotes operand value)
    (ranged : ∀ base, (FieldRange.of? slot.width base).isSome = true) :
    Decides (program.InRange slot operand) line .operandOutOfBounds
      (checkRange line operand value slot) := by
  unfold checkRange InRange
  cases denotes with
  | register form =>
      simp only [form]
      exact .passes trivial
  | @immediate base value form =>
      obtain ⟨range, found⟩ := Option.isSome_iff_exists.mp (ranged (some base))
      simp only [form, found]
      cases inside : range.contains value with
      | true => exact .passes ⟨range, rfl, inside⟩
      | false => exact .rejects (by simp [inside]) rfl
  | literal form found =>
      simp only [form]
      exact .passes trivial
  | @symbol symbol form defined =>
      obtain ⟨range, found⟩ := Option.isSome_iff_exists.mp (ranged none)
      simp only [form, found, defined]
      cases inside : range.contains symbol.value with
      | true => exact .passes (by simp [inside])
      | false => exact .rejects (by simp [inside]) rfl

theorem checkPage_decides (denotes : program.Denotes operand value)
    (located : record.location = some location)
    (addressed : slot.width = addressWidth → operand.kind ≠ .register) :
    Decides (program.OnPage location slot operand) record.line .pageMismatch
      (checkPage record operand (.value value) slot) := by
  unfold checkPage
  by_cases wide : slot.width = addressWidth
  · rw [if_pos ⟨wide, addressed wide⟩]
    simp only [locationOf, located, valueOf, ok_bind]
    by_cases same : pageOf (location + 1) = pageOf value
    · rw [if_pos same]
      refine .passes ?_
      intro _ other alsoDenotes
      rw [alsoDenotes.unique denotes]
      exact same
    · rw [if_neg same]
      refine .rejects ?_ rfl
      intro onPage
      exact same (onPage wide value denotes)
  · rw [if_neg (by simp [wide])]
    exact .passes fun narrow => absurd narrow wide

/-- The last operand of an instruction, in front of steps that cannot fail. -/
theorem lastField_verdict {next : Int → Except Failure β}
    (located : record.location = some location) (fits : slot.allows operand.kind = true)
    (ranged : ∀ base, (FieldRange.of? slot.width base).isSome = true ∧
      slot.allows .string = false)
    (addressed : slot.width = addressWidth → slot.allows .register = false)
    (later : ∀ value, ∃ result, next value = .ok result) :
    Verdict record.line (program.Knows operand) (program.InRange slot operand)
      (program.OnPage location slot operand) (do
        let resolved ← program.resolve record.line operand
        checkField record operand resolved slot true
        let value ← valueOf resolved .bits
        next value) := by
  have isNot {kind : Kind} (refused : slot.allows kind = false) : operand.kind ≠ kind := by
    rintro rfl
    rw [fits] at refused
    cases refused
  have notString := isNot (ranged none).2
  have notMalformed := isNot slot.allows_malformed
  apply Verdict.of_known (resolve_decides notString notMalformed)
  intro resolved outcome
  cases resolved with
  | value value =>
      have denotes := resolve_eq_value_iff.mp outcome
      simp only [checkField, bind_assoc]
      apply Verdict.of_fits (checkRange_decides denotes fun base => (ranged base).1)
      intro _ _
      apply Verdict.of_onPage (checkPage_decides denotes located fun wide => isNot (addressed wide))
      intro _ _
      exact later value
  | external =>
      have external := resolve_eq_external_iff.mp outcome
      obtain ⟨result, succeeds⟩ := later 0
      simp only [checkField, if_true, valueOf, ok_bind, succeeds]
      refine .made trivial ?_ ?_
      · simp [InRange, external.1, external.2.1]
      · exact fun _ value denotes => absurd denotes external.not_denotes
  | nothing => exact absurd rfl (resolve_ne_nothing notString notMalformed outcome)

/-- A register is packed without anything to check. -/
theorem packOperands_register {slots : List Slot} {operands : List Operand} {word number : Nat}
    (form : operand.form = .register number) :
    program.packOperands record (slot :: slots) (operand :: operands) word =
      program.packOperands record slots operands (word ||| slot.pack number) := by
  have kind : operand.kind = .register := by rw [Operand.kind, form]; rfl
  simp [packOperands, resolve, form, checkField, checkRange, checkPage, kind, valueOf]

/-- Only the last operand of an instruction can be at fault. -/
theorem packOperands_verdict {slots : List Slot} {operands : List Operand} {word : Nat}
    (located : record.location = some location)
    (allowed : List.Forall₂ (fun slot operand => slot.allows operand.kind = true)
      slots operands)
    (ranged : ∀ base, ∀ slot ∈ slots, (FieldRange.of? slot.width base).isSome = true ∧
      slot.allows .string = false)
    (registers : ∀ kind, ∀ slot ∈ slots.dropLast, slot.allows kind = true → kind = .register)
    (addressed : ∀ slot ∈ slots, slot.width = addressWidth → slot.allows .register = false) :
    Verdict record.line (∀ operand ∈ operands, program.Knows operand)
      (∀ field ∈ slots.zip operands, program.InRange field.1 field.2)
      (∀ field ∈ slots.zip operands, program.OnPage location field.1 field.2)
      (program.packOperands record slots operands word) := by
  induction allowed generalizing word with
  | nil => exact .made (by simp) (by simp) (by simp)
  | @cons slot operand slots operands fits others induction =>
      have here : slot ∈ slot :: slots := List.mem_cons_self
      cases others with
      | nil =>
          have verdict : Verdict record.line (program.Knows operand)
              (program.InRange slot operand) (program.OnPage location slot operand)
              (program.packOperands record [slot] [operand] word) :=
            lastField_verdict located fits (fun base => ranged base slot here)
              (addressed slot here) (fun value => ⟨word ||| slot.pack value, rfl⟩)
          exact verdict.congr (by simp) (by simp) (by simp)
      | @cons second other slots operands allowed others =>
          obtain ⟨number, form⟩ : ∃ number, operand.form = .register number := by
            have kind := registers operand.kind slot (by simp) fits
            unfold Operand.kind at kind
            cases form : operand.form with
            | register number => exact ⟨number, rfl⟩
            | _ => simp [form, Form.kind] at kind
          rw [packOperands_register form]
          have narrow : slot.width ≠ addressWidth := by
            intro wide
            have refused := addressed slot here wide
            rw [show operand.kind = .register by rw [Operand.kind, form]; rfl, refused] at fits
            cases fits
          refine (induction
            (fun base other member => ranged base other (List.mem_cons_of_mem _ member))
            (fun kind other member => registers kind other (by simp [member]))
            (fun other member => addressed other (List.mem_cons_of_mem _ member))).congr ?_ ?_ ?_
          · simp [Knows, form]
          · simp [InRange, form]
          · simp [OnPage, narrow]

theorem flagImmediate_ok {mnemonic : Mnemonic} {operands : List Operand}
    (present : mnemonic.flagsImmediate = true → operands ≠ []) (word : Nat) :
    ∃ flagged, flagImmediate mnemonic operands word = .ok flagged := by
  unfold flagImmediate
  split
  · rename_i flags
    split
    · rename_i absent
      exact absurd (List.getLast?_eq_none_iff.mp absent) (present flags)
    · exact ⟨_, rfl⟩
  · exact ⟨_, rfl⟩

theorem encodeInstruction_verdict {mnemonic : Mnemonic}
    (located : record.location = some location)
    (operation : record.operation = .instruction mnemonic)
    (accepted : (Operation.instruction mnemonic).Accepts record.operands) :
    Verdict record.line (program.KnowsAll record) (program.FitsAll record)
      (program.AllOnPage record) (program.encodeInstruction record mnemonic) := by
  have packed : Verdict record.line (program.KnowsAll record) (program.FitsAll record)
      (program.AllOnPage record) (program.packOperands record mnemonic.slots record.operands
        mnemonic.template) := by
    refine (packOperands_verdict located accepted mnemonic.slot_ranged
      mnemonic.registers_before_last
      (fun slot member wide => (mnemonic.slot_of_address slot member wide).1)).congr ?_ ?_ ?_
    · simp [KnowsAll, Record.values, operation]
    · simp [FitsAll, Record.fields, operation]
    · simp [AllOnPage, Record.fields, operation, located]
  apply packed.bind
  intro word _
  obtain ⟨flagged, done⟩ :=
    flagImmediate_ok (fun flags => Mnemonic.operands_ne_nil flags accepted) word
  simp only [done, locationOf, located, ok_bind]
  exact ⟨_, rfl⟩

theorem encodeFill_verdict (located : record.location = some location)
    (operation : record.operation = .directive .fill) (operands : record.operands = [operand])
    (notString : operand.kind ≠ .string) (notMalformed : operand.kind ≠ .malformed) :
    Verdict record.line (program.KnowsAll record) (program.FitsAll record)
      (program.AllOnPage record) (program.encodeFill record) := by
  have first : firstOperand record = .ok operand := by simp [firstOperand, operands]
  have known : program.KnowsAll record ↔ program.Knows operand := by
    simp [KnowsAll, Record.values, operation, operands]
  have fits : program.FitsAll record ↔
      ∀ base value, operand.form = .immediate base value →
        -0x8000 ≤ value ∧ value ≤ 0xFFFF := by
    simp [FitsAll, Record.fields, operation, operands]
  have onPage : program.AllOnPage record := by
    simp [AllOnPage, Record.fields, operation]
  simp only [encodeFill, first, ok_bind]
  refine Verdict.congr (Verdict.of_known (resolve_decides notString notMalformed) ?_)
    known.symm fits.symm (iff_of_true trivial onPage)
  intro resolved outcome
  obtain ⟨word, valued⟩ : ∃ word, valueOf resolved .bits = .ok word := by
    cases resolved with
    | value value => exact ⟨value, rfl⟩
    | external => exact ⟨0, rfl⟩
    | nothing => exact absurd rfl (resolve_ne_nothing notString notMalformed outcome)
  simp only [valued, locationOf, located, ok_bind]
  split
  · rename_i base value form
    have fitting : (∀ base value, operand.form = .immediate base value →
        -0x8000 ≤ value ∧ value ≤ 0xFFFF) ↔ fitsWord value = true := by
      simp [form, fitsWord]
    cases fitted : fitsWord value with
    | true => exact .made trivial (fitting.mpr fitted) trivial
    | false => exact .oversized trivial (by simp [fitting, fitted]) rfl
  · rename_i plain
    exact .made trivial (fun base value form => (plain base value form).elim) trivial

theorem encodeRecord_verdict (wellFormed : record.WellFormed)
    (stored : record.operation.storage = true →
      ∃ location, record.location = some location) :
    Verdict record.line (program.KnowsAll record) (program.FitsAll record)
      (program.AllOnPage record) (program.encodeRecord record) := by
  have accepted := wellFormed.accepted
  have sized := wellFormed.sized
  -- A record of another operation has no operand that goes into a word.
  have unconditional (values : record.values = []) (fields : record.fields = [])
      (notFill : record.operation ≠ .directive .fill) {output : Output} :
      Verdict record.line (program.KnowsAll record) (program.FitsAll record)
        (program.AllOnPage record) (.ok output) := by
    refine .made ?_ ?_ ?_
    · simp [KnowsAll, values]
    · simp [FitsAll, fields, notFill]
    · simp [AllOnPage, fields]
  cases operation : record.operation with
  | unknown name =>
      rw [operation] at accepted
      exact accepted.elim
  | instruction mnemonic =>
      obtain ⟨location, located⟩ := stored (by rw [operation]; rfl)
      rw [operation] at accepted
      simp only [encodeRecord, operation]
      exact encodeInstruction_verdict located operation accepted
  | directive order =>
      rw [operation] at accepted
      simp only [encodeRecord, operation]
      cases order with
      | fill =>
          obtain ⟨location, located⟩ := stored (by rw [operation]; rfl)
          obtain ⟨operand, operands⟩ : ∃ operand, record.operands = [operand] :=
            List.length_eq_one_iff.mp (Nat.le_antisymm accepted.2.1 accepted.1)
          have allowed := accepted.2.2 operand (by simp [operands])
          apply encodeFill_verdict located operation operands
          · intro kind
            rw [kind] at allowed
            cases allowed
          · intro kind
            rw [kind] at allowed
            cases allowed
      | strz =>
          obtain ⟨location, located⟩ := stored (by rw [operation]; rfl)
          simp only [Record.Sized, operation] at sized
          obtain ⟨operand, body, operands, characters, _⟩ := sized
          have first : firstOperand record = .ok operand := by simp [firstOperand, operands]
          simp only [encodeString, first, characters, locationOf, located, ok_bind]
          apply unconditional <;> simp [Record.values, Record.fields, operation]
      | blkw =>
          obtain ⟨location, located⟩ := stored (by rw [operation]; rfl)
          simp only [locationOf, located, ok_bind]
          apply unconditional <;> simp [Record.values, Record.fields, operation]
      | orig | endSegment | equ | ent | ext =>
          apply unconditional <;> simp [Record.values, Record.fields, operation]

/-- What the verdicts on some records amount to: all words are made, or the first record
that cannot be encoded is to blame. -/
inductive Judged (program : Program) : List Record → Except Failure α → Prop where
  | made {records : List Record} {value : α}
      (encodable : ∀ record ∈ records, program.Encodable record) :
      Judged program records (.ok value)
  | rejected (earlier : List Record) {later : List Record} {record : Record} {cause : Cause}
      (encodable : ∀ other ∈ earlier, program.Encodable other)
      (offends : program.Offends record cause.code) :
      Judged program (earlier ++ record :: later) (.error (.reject record.line cause))

theorem Offends.not_encodable {code : Code} (offends : program.Offends record code) :
    ¬program.Encodable record := by
  rintro ⟨known, fits, onPage⟩
  cases offends with
  | unknown someUnknown => exact someUnknown known
  | oversized _ someMisfit => exact someMisfit fits
  | offPage _ _ someOffPage => exact someOffPage onPage

theorem encodeRecords_judged {records : List Record}
    (verdicts : ∀ record ∈ records,
      Verdict record.line (program.KnowsAll record) (program.FitsAll record)
        (program.AllOnPage record) (program.encodeRecord record)) :
    Judged program records (program.encodeRecords records) := by
  induction records with
  | nil => exact .made (by simp)
  | cons record records induction =>
      obtain ⟨here, others⟩ := List.forall_mem_cons.mp verdicts
      rw [encodeRecords]
      generalize program.encodeRecord record = outcome at here
      cases here with
      | made known fits onPage =>
          have later := induction others
          generalize program.encodeRecords records = rest at later
          have encodable : program.Encodable record := ⟨known, fits, onPage⟩
          cases later with
          | made all => exact .made (List.forall_mem_cons.mpr ⟨encodable, all⟩)
          | rejected earlier all offends =>
              exact .rejected (record :: earlier)
                (List.forall_mem_cons.mpr ⟨encodable, all⟩) offends
      | unknown someUnknown coded =>
          exact .rejected [] (by simp) (coded ▸ .unknown someUnknown)
      | oversized known someMisfit coded =>
          exact .rejected [] (by simp) (coded ▸ .oversized known someMisfit)
      | offPage known fits someOffPage coded =>
          exact .rejected [] (by simp) (coded ▸ .offPage known fits someOffPage)

theorem encodeEntries_ok {declarations : List Declaration}
    (defined : ∀ entry ∈ declarations, program.hasSymbol entry.name = true) :
    ∃ entries, program.encodeEntries declarations = .ok entries := by
  induction declarations with
  | nil => exact ⟨[], rfl⟩
  | cons declaration declarations induction =>
      obtain ⟨symbol, found⟩ := Option.isSome_iff_exists.mp (defined declaration (by simp))
      obtain ⟨entries, others⟩ :=
        induction fun other member => defined other (List.mem_cons_of_mem _ member)
      simp only [encodeEntries, encodeEntry, requireSymbol, found, others, ok_bind, pure_eq_ok]
      exact ⟨_, rfl⟩

theorem encode_judged {limits : Limits} (assembled : program.Assembled limits) :
    Judged program program.records program.encode := by
  obtain ⟨entries, declared⟩ := encodeEntries_ok assembled.entries
  have body : Judged program program.records (program.encodeRecords program.records) :=
    encodeRecords_judged fun record member =>
      encodeRecord_verdict (assembled.wellFormed record member)
        (assembled.laidOut.located record member)
  simp only [encode, assembled.frozen, Bool.not_true, Bool.false_eq_true, if_false, declared,
    ok_bind]
  generalize program.encodeRecords program.records = outcome at body
  generalize program.records = records at body
  cases body with
  | made encodable => exact .made encodable
  | rejected earlier encodable offends => exact .rejected earlier encodable offends

/-- The first record that cannot be encoded is the one that is to blame. -/
theorem Judged.error_of_first {records earlier later : List Record}
    {outcome : Except Failure α} (judged : Judged program records outcome)
    (cut : records = earlier ++ record :: later)
    (encodable : ∀ other ∈ earlier, program.Encodable other)
    (offending : ¬program.Encodable record) :
    ∃ cause, outcome = .error (.reject record.line cause) ∧
      program.Offends record cause.code := by
  cases judged with
  | made all => exact absurd (all record (by simp [cut])) offending
  | @rejected front behind blamed cause before offends =>
      suffices same : blamed = record by
        subst same
        exact ⟨cause, rfl, offends⟩
      rcases List.append_eq_append_iff.mp cut with
        ⟨between, rfl, rest⟩ | ⟨between, rfl, rest⟩
      · cases between with
        | nil => exact (List.cons.inj rest).1
        | cons first others =>
            obtain ⟨rfl, _⟩ := List.cons.inj rest
            exact absurd (encodable blamed (by simp)) offends.not_encodable
      · cases between with
        | nil => exact (List.cons.inj rest).1.symm
        | cons first others =>
            obtain ⟨rfl, _⟩ := List.cons.inj rest
            exact absurd (before record (by simp)) offending

/-- A program that was read is encoded exactly if every record can be, and otherwise the
first that cannot is reported on its line: for what is unknown before what does not fit,
and for this before what lies on another page. -/
theorem encode_ok_or_first_offender {limits : Limits} {source : Source} {program : Program}
    (read : (Program.read limits source).outcome = .ok program) :
    ((∃ output, program.encode = .ok output) ↔
        ∀ record ∈ program.records, program.Encodable record) ∧
      (∀ earlier record later, program.records = earlier ++ record :: later →
        (∀ other ∈ earlier, program.Encodable other) → ¬program.Encodable record →
          ∃ cause, program.encode = .error (.reject record.line cause) ∧
            program.Offends record cause.code) ∧
      ∀ error, program.encode = .error (.rejected error) → error.code ≠ .externalNotFinal := by
  have judged := encode_judged (Program.assembled_of_read read)
  refine ⟨?_, ?_, ?_⟩
  · generalize program.encode = outcome at judged
    generalize program.records = records at judged
    cases judged with
    | @made _ output all => exact ⟨fun _ => all, fun _ => ⟨output, rfl⟩⟩
    | @rejected earlier later record cause _ offends =>
        constructor
        · rintro ⟨_, impossible⟩
          cases impossible
        · intro all
          exact absurd (all record (by simp)) offends.not_encodable
  · intro earlier record later cut encodable offending
    exact judged.error_of_first cut encodable offending
  · intro error fails notFinal
    rw [fails] at judged
    generalize program.records = records at judged
    cases judged with
    | rejected _ _ offends =>
        -- None of the three codes is this one.
        rw [show Cause.code _ = Code.externalNotFinal from notFinal] at offends
        cases offends

/-- A program whose second instruction leaves its page, behind one that calls another
segment. -/
def strayingSource : Source :=
  .ofLines
    ["S        .ORIG   x3000", "         .EXT    OUT", "         JSR     OUT",
     "         LEA     R0,x0005", "         .END"]

theorem strayingSource_blamed :
    ∃ program, (Program.read {} strayingSource).outcome = .ok program ∧
      program.encode = .error (.reject 4 (.page 5 0x3001)) ∧
      ((∃ output, program.encode = .ok output) ↔
        ∀ record ∈ program.records, program.Encodable record) ∧
      (∀ earlier record later, program.records = earlier ++ record :: later →
        (∀ other ∈ earlier, program.Encodable other) → ¬program.Encodable record →
          ∃ cause, program.encode = .error (.reject record.line cause) ∧
            program.Offends record cause.code) ∧
      ∀ error, program.encode = .error (.rejected error) → error.code ≠ .externalNotFinal := by
  have blamed : (Program.read {} strayingSource).outcome.map Program.encode =
      .ok (.error (.reject 4 (.page 5 0x3001))) := by
    decide +kernel
  cases read : (Program.read {} strayingSource).outcome with
  | error failure =>
      rw [read] at blamed
      cases blamed
  | ok program =>
      rw [read] at blamed
      exact ⟨program, rfl, Except.ok.inj blamed, encode_ok_or_first_offender read⟩

end Program

end Lc3Assembler
