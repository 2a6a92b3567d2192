import Lc3Assembler.Proofs.Decoding
import Lc3Assembler.Proofs.Rebasing

/-!
# Relocation tags

A linker that adds the load address wherever a tag asks for it turns the words
of a relocatable segment into those of the same segment at the load address.
Both segments are encoded side by side: an operand moves exactly if its word is
tagged, and it moves the lowest bits of the word alone.
-/

namespace Lc3Assembler

/-- Whether a linker adds the load address to a word. -/
def Relocation.moves : Relocation → Bool
  | .field | .address => true
  | _ => false

/-- The number of low bits to which the load address is added. -/
def Record.movingBits? (record : Record) : Option Nat :=
  match record.operation with
  | .instruction mnemonic => mnemonic.slots.getLast?.map fun slot => slot.width.toNat
  | .directive .fill => some 16
  | _ => none

/-- A word of a relocatable segment, and the same word at a load address. -/
structure StoredWord.Rebased (program : Program) (address : Int) (stored moved : StoredWord) :
    Prop where
  placed : moved.address = stored.address + address
  untagged : moved.relocation = .fixed
  kept : stored.relocation.moves = false → moved.contents = stored.contents
  shifted : stored.relocation.moves = true →
    ∃ record ∈ program.records, record.location = some stored.address ∧
      ∃ bits, record.movingBits? = some bits ∧
        moved.contents / 2 ^ bits = stored.contents / 2 ^ bits ∧
        (moved.contents : Int) % 2 ^ bits =
          ((stored.contents : Int) % 2 ^ bits + address) % 2 ^ bits

/-- The words of two outputs in pairs. -/
def Output.Rebased (program : Program) (address : Int) (output moved : Output) : Prop :=
  List.Forall₂ (StoredWord.Rebased program address) output.words moved.words

/-- What an operand stands for at the load address. -/
inductive Resolved.Moved (address : Int) : Bool → Resolved → Resolved → Prop where
  | kept (resolved : Resolved) : Resolved.Moved address false resolved resolved
  | shifted (value : Int) :
      Resolved.Moved address true (.value value) (.value (value + address))

namespace Program

/-- Whether an operand moves with its segment. -/
def moves (program : Program) (operand : Operand) : Bool :=
  match operand.form with
  | .literal _ _ => true
  | .symbol => (program.symbol? operand.text).any Symbol.relocatable
  | _ => false

/-- A word is tagged for the linker exactly if its operand moves. -/
theorem moves_relocation {program : Program} (relocatable : program.relocatable = true)
    (operand : Operand) (slot : Slot) :
    (program.relocation operand slot).moves = program.moves operand := by
  simp only [relocation, relocatable, Bool.not_true, Bool.false_eq_true, if_false, moves]
  cases operand.form with
  | register number => rfl
  | immediate base value => rfl
  | literal base value => rfl
  | string => rfl
  | malformed => rfl
  | symbol =>
      cases found : program.symbol? operand.text with
      | none =>
          simp only [Option.any_none]
          split
          · rfl
          · rfl
      | some symbol =>
          simp only [Option.any_some]
          cases symbol.relocatable with
          | false => rfl
          | true =>
              simp only [if_true]
              split
              · rfl
              · rfl

theorem lastRelocation_fixed {program : Program} (fixed : program.relocatable = false)
    (slots : List Slot) (operands : List Operand) :
    program.lastRelocation slots operands = .fixed := by
  fun_induction lastRelocation program slots operands with
  | case1 slot _ operand => simp [relocation, fixed]
  | case2 _ _ _ _ _ induction => exact induction
  | case3 => rfl

end Program

namespace Program.MovedPlaced

variable {address : Int} {program moved : Program} {record other : Record}

theorem literal? (programs : program.MovedPlaced address moved) (value : Int) :
    (program.literal? value = none ∧ moved.literal? value = none) ∨
      ∃ literal other, program.literal? value = some literal ∧
        moved.literal? value = some other ∧ literal.Moved address other := by
  apply find?_of_forall₂ programs.literals
  intro literal other relation
  rw [relation.word]

theorem resolve (programs : program.MovedPlaced address moved) (line : Int)
    (operand : Operand) :
    Follows (address = 0) (Resolved.Moved address (program.moves operand))
      (program.resolve line operand) (moved.resolve line operand) := by
  unfold Program.resolve Program.moves
  cases operand.form with
  | register number => exact .ok (.kept _)
  | immediate base value => exact .ok (.kept _)
  | string => exact .ok (.kept _)
  | malformed => exact .ok (.kept _)
  | literal base value =>
      rcases programs.literal? value with
        ⟨absent, alsoAbsent⟩ | ⟨literal, other, found, alsoFound, relation⟩
      · simp only [absent]
        exact .error _ _
      · simp only [found, alsoFound, relation.address]
        exact .ok (.shifted _)
  | symbol =>
      have parts := programs.parts
      rcases parts.symbol? operand.text with
        ⟨absent, alsoAbsent⟩ | ⟨symbol, other, found, alsoFound, relation⟩
      · simp only [absent, alsoAbsent, parts.isExternal, Option.any_none]
        split
        · exact .ok (.kept _)
        · exact .error _ _
      · simp only [found, alsoFound, relation.value, Option.any_some]
        cases symbol.relocatable with
        | true => exact .ok (.shifted _)
        | false => exact .ok (.kept _)

end Program.MovedPlaced

namespace Program

variable {address : Int} {record other : Record}

theorem checkField_moved {resolved otherResolved : Resolved} {moves isLast : Bool}
    {operand : Operand} {slot : Slot} (records : record.Moved address other)
    (values : Resolved.Moved address moves resolved otherResolved) :
    Follows (address = 0) (fun _ _ => True) (checkField record operand resolved slot isLast)
      (checkField other operand otherResolved slot isLast) := by
  apply Follows.check
  intro zero
  have sameValue : otherResolved = resolved := by
    cases values with
    | kept => rfl
    | shifted value => rw [zero, Int.add_zero]
  have sameLocation : other.location = record.location := by
    rw [records.location, zero]
    simp
  simp only [checkField, checkPage, locationOf, sameValue, sameLocation, records.line]

theorem valueOf_moved {resolved otherResolved : Resolved} {moves : Bool} {use : ValueUse}
    (values : Resolved.Moved address moves resolved otherResolved) :
    Follows (address = 0) (fun value otherValue => otherValue = movedValue address moves value)
      (valueOf resolved use) (valueOf otherResolved use) := by
  cases values with
  | shifted value => exact .ok rfl
  | kept resolved =>
      apply (Follows.same _).mono
      intro value otherValue _ _ same
      exact same.symm

theorem locationOf_moved {use : LocationUse} (records : record.Moved address other) :
    Follows (address = 0) (fun location otherLocation => otherLocation = location + address)
      (locationOf record use) (locationOf other use) := by
  unfold locationOf
  rw [records.location]
  cases record.location with
  | none => exact .error _ _
  | some location => exact .ok rfl

theorem flagImmediate_moved {certain : Prop} (mnemonic : Mnemonic) (operands : List Operand)
    (packed otherPacked : Nat) :
    Follows certain
      (fun word otherWord => word = packed ||| mnemonic.flagOf operands ∧
        otherWord = otherPacked ||| mnemonic.flagOf operands)
      (flagImmediate mnemonic operands packed) (flagImmediate mnemonic operands otherPacked) := by
  intro word outcome _
  have succeeds : ∃ otherWord,
      flagImmediate mnemonic operands otherPacked = .ok otherWord := by
    cases flags : mnemonic.flagsImmediate with
    | false => exact ⟨otherPacked, by simp [flagImmediate, flags]⟩
    | true =>
        cases last : operands.getLast? with
        | none => simp [flagImmediate, flags, last] at outcome
        | some operand => exact ⟨_, by simp only [flagImmediate, flags, last, if_true]; rfl⟩
  obtain ⟨otherWord, otherOutcome⟩ := succeeds
  exact ⟨otherWord, otherOutcome, flagImmediate_eq_ok outcome, flagImmediate_eq_ok otherOutcome⟩

theorem moves_of_register {program : Program} {operand : Operand}
    (register : operand.kind = .register) : program.moves operand = false := by
  obtain ⟨number, form⟩ := Form.kind_eq_register_iff.mp register
  simp [moves, form]

theorem not_register_of_moves {program : Program} {operand : Operand}
    (moving : program.moves operand = true) : operand.kind ≠ .register := by
  intro register
  rw [moves_of_register register] at moving
  cases moving

-- Operands before the last one are registers, which do not move, and the last
-- one is in the lowest bits if it moves.
theorem packOperands_moved {program moved : Program} {slots : List Slot}
    {operands : List Operand} {word : Nat} (programs : program.MovedPlaced address moved)
    (records : record.Moved address other)
    (allowed : List.Forall₂ (fun slot operand => slot.allows operand.kind = true)
      slots operands)
    (registers : ∀ slot ∈ slots.dropLast, ∀ kind, slot.allows kind = true → kind = .register)
    (lowest : ∀ slot ∈ slots, ∀ kind, slot.allows kind = true → kind ≠ .register →
      slot.position = 0) :
    Follows (address = 0)
      (fun packed otherPacked =>
        (operands.getLast?.any program.moves = false → otherPacked = packed) ∧
          ∀ slot, slots.getLast? = some slot →
            otherPacked >>> slot.width.toNat = packed >>> slot.width.toNat)
      (program.packOperands record slots operands word)
      (moved.packOperands other slots operands word) := by
  induction allowed generalizing word with
  | nil => exact .ok ⟨fun _ => rfl, fun _ _ => rfl⟩
  | @cons slot operand slots operands fits rest induction =>
      simp only [packOperands, records.line]
      apply (programs.resolve record.line operand).bind
      intro resolved otherResolved _ _ values
      apply (checkField_moved records values).bind
      intro _ _ _ _ _
      apply (valueOf_moved values).bind
      intro value otherValue _ _ result
      cases rest with
      | nil =>
          simp only [packOperands]
          cases moving : program.moves operand with
          | false =>
              have same : otherValue = value := by rw [result, moving]; rfl
              subst same
              exact .ok ⟨fun _ => rfl, fun _ _ => rfl⟩
          | true =>
              have low := lowest slot (by simp) operand.kind fits (not_register_of_moves moving)
              refine .ok ⟨by simp [moving], ?_⟩
              intro last same
              obtain rfl : slot = last := by simpa using same
              have below : slot.top ≤ slot.width.toNat := by simp [Slot.top, low]
              simp only [Nat.shiftRight_or_distrib, Slot.pack_shiftRight below]
      | @cons next second slots operands nextFits rest =>
          have kind := registers slot (by simp) operand.kind fits
          have same : otherValue = value := by rw [result, moves_of_register kind]; rfl
          rw [same]
          apply (induction
            (fun other member => registers other (List.mem_cons_of_mem slot member))
            (fun other member => lowest other (List.mem_cons_of_mem slot member))).mono
          rintro packed otherPacked _ _ ⟨equal, above⟩
          exact ⟨by simpa using equal, by simpa using above⟩

theorem resolve_of_dataValue {program : Program} {operand : Operand} {value : Int}
    (valued : program.DataValue operand value) :
    ∃ resolved, program.resolve 0 operand = .ok resolved := by
  rcases valued with denotes | ⟨external, _⟩
  · exact ⟨_, resolve_eq_value_iff.mpr denotes⟩
  · exact ⟨_, resolve_eq_external_iff.mpr external⟩

theorem not_external_of_moves {program : Program} {operand : Operand}
    (moving : program.moves operand = true) : ¬ program.DenotesExternal operand := by
  rintro ⟨form, absent, _⟩
  simp [moves, form, absent] at moving

theorem MovedPlaced.denotes {program moved : Program} {address value otherValue : Int}
    {operand : Operand} (programs : program.MovedPlaced address moved)
    (moving : program.moves operand = true) (valued : program.DataValue operand value)
    (otherValued : moved.DataValue operand otherValue) :
    program.Denotes operand value ∧ moved.Denotes operand (value + address) := by
  have denotes : program.Denotes operand value := by
    rcases valued with denotes | ⟨external, _⟩
    · exact denotes
    · exact absurd external (not_external_of_moves moving)
  refine ⟨denotes, ?_⟩
  obtain ⟨resolved, outcome, relation⟩ := programs.resolve 0 operand _
    (resolve_eq_value_iff.mpr denotes) (.inr (resolve_of_dataValue otherValued))
  rw [moving] at relation
  cases relation
  exact resolve_eq_value_iff.mp outcome

theorem MovedPlaced.low_bits {program moved : Program} {address : Int} {record other : Record}
    {mnemonic : Mnemonic} {word otherWord : Nat} {slot : Slot} {operand : Operand}
    (programs : program.MovedPlaced address moved)
    (encodes : program.Encodes record mnemonic word)
    (otherEncodes : moved.Encodes other mnemonic otherWord)
    (operands : other.operands = record.operands)
    (last : record.lastField? mnemonic = some (slot, operand))
    (moving : program.moves operand = true) :
    (otherWord : Int) % 2 ^ slot.width.toNat =
      ((word : Int) % 2 ^ slot.width.toNat + address) % 2 ^ slot.width.toNat := by
  have member := List.mem_of_getLast? last
  have otherMember : (slot, operand) ∈ mnemonic.slots.zip other.operands := operands ▸ member
  have otherLast : other.lastField? mnemonic = some (slot, operand) := by
    rw [Record.lastField?, operands]
    exact last
  obtain ⟨slotMember, _⟩ := List.of_mem_zip member
  obtain ⟨lowest, _, literal⟩ := mnemonic.slot_of_value operand.kind slot slotMember
    (encodes.allowed member) (not_register_of_moves moving)
  obtain ⟨value, valued, _, _⟩ := encodes.fields slot operand member
  obtain ⟨otherValue, otherValued, _, _⟩ := otherEncodes.fields slot operand otherMember
  obtain ⟨denotes, otherDenotes⟩ := programs.denotes moving valued otherValued
  have reads (contents : Nat) :
      (contents : Int) % 2 ^ slot.width.toNat = (slot.read contents : Nat) := by
    rw [Slot.read_lowest lowest]
    push_cast
    rfl
  rw [reads, reads]
  cases flags : mnemonic.flagsImmediate with
  | false =>
      rw [(encodes.value_of_denotes member denotes).1,
        (otherEncodes.value_of_denotes otherMember otherDenotes).1]
      simp [Mnemonic.flagOf_eq_zero flags, Slot.read, lowBits_add]
  | true =>
      -- The flag is the top bit of the field, and the range keeps it clear.
      obtain ⟨slotEq, _⟩ := encodes.last_of_flagsImmediate last flags
      have narrow : slot.width ≠ addressWidth := by rw [slotEq]; decide
      have form : operand.form = .symbol := by
        unfold moves at moving
        cases shape : operand.form with
        | symbol => rfl
        | literal base value =>
            exact absurd (literal (by simp [Operand.kind, shape, Form.kind])) narrow
        | _ => simp [shape] at moving
      have read := encodes.read_flagged last flags form denotes
      have otherRead := otherEncodes.read_flagged otherLast flags form otherDenotes
      have power : (2 : Int) ^ slot.width.toNat = 64 := by rw [slotEq]; rfl
      have small : slot.read otherWord < 2 ^ slot.width.toNat :=
        Nat.mod_lt _ (Nat.two_pow_pos _)
      have bound : (slot.read otherWord : Int) < 64 := by
        rw [← power]
        exact_mod_cast small
      rw [read, otherRead, power]
      omega

end Program

theorem Program.moves_lastRelocation {program : Program} {slots : List Slot}
    {operands : List Operand} (relocatable : program.relocatable = true)
    (same : slots.length = operands.length) :
    (program.lastRelocation slots operands).moves = operands.getLast?.any program.moves := by
  fun_induction lastRelocation program slots operands with
  | case1 slot _ operand => exact moves_relocation relocatable operand slot
  | case2 _ slots _ operands several induction =>
      rw [induction (by simpa using same)]
      cases operands with
      | nil => exact absurd rfl several
      | cons _ _ => simp
  | case3 slots operands _ unpaired =>
      cases operands with
      | nil => rfl
      | cons operand operands =>
          cases slots with
          | nil => simp at same
          | cons slot slots => exact (unpaired _ _ _ _ rfl rfl).elim

namespace Program.MovedPlaced

variable {address : Int} {program moved : Program} {record other : Record}

/-- Both words of an instruction have the same bits above the last slot. -/
theorem encodeInstruction_words {mnemonic : Mnemonic} (programs : program.MovedPlaced address moved)
    (records : record.Moved address other) (operands : other.operands = record.operands)
    (accepted : (Operation.instruction mnemonic).Accepts record.operands) :
    Follows (address = 0)
      (fun output otherOutput => ∃ location word otherWord,
        output.words =
          [⟨location, word, program.lastRelocation mnemonic.slots record.operands⟩] ∧
        otherOutput.words = [⟨location + address, otherWord, .fixed⟩] ∧
        (record.operands.getLast?.any program.moves = false → otherWord = word) ∧
        ∀ slot, mnemonic.slots.getLast? = some slot →
          otherWord >>> slot.width.toNat = word >>> slot.width.toNat)
      (program.encodeInstruction record mnemonic) (moved.encodeInstruction other mnemonic) := by
  unfold Program.encodeInstruction
  rw [operands, lastRelocation_fixed programs.parts.fixed]
  apply (packOperands_moved programs records accepted
    (fun slot inside kind => mnemonic.registers_before_last kind slot inside)
    (fun slot inside kind fits notRegister =>
      (mnemonic.slot_of_value kind slot inside fits notRegister).1)).bind
  rintro packed otherPacked _ _ ⟨equal, above⟩
  apply (flagImmediate_moved mnemonic record.operands packed otherPacked).bind
  rintro word otherWord _ _ ⟨flagged, otherFlagged⟩
  apply (locationOf_moved records).bind
  intro location otherLocation _ _ placed
  subst placed
  refine .ok ⟨location, word, otherWord, rfl, rfl, ?_, ?_⟩
  · intro still
    rw [flagged, otherFlagged, equal still]
  · intro slot last
    rw [flagged, otherFlagged, Nat.shiftRight_or_distrib, Nat.shiftRight_or_distrib,
      above slot last]

theorem encodeInstruction {mnemonic : Mnemonic} (programs : program.MovedPlaced address moved)
    (records : record.Moved address other) (wellFormed : record.WellFormed)
    (otherWellFormed : other.WellFormed) (member : record ∈ program.records)
    (operation : record.operation = .instruction mnemonic) :
    Follows (address = 0) (Output.Rebased program address)
      (program.encodeInstruction record mnemonic) (moved.encodeInstruction other mnemonic) := by
  have parts := programs.parts
  have operands : other.operands = record.operands := records.operands (by simp [operation])
  have accepted := wellFormed.accepted
  rw [operation] at accepted
  apply (programs.encodeInstruction_words records operands accepted).mono
  rintro output otherOutput outcome otherOutcome
    ⟨location, word, otherWord, words, otherWords, equal, above⟩
  rw [Output.Rebased, words, otherWords]
  refine .cons ?_ .nil
  obtain ⟨_, _, _, encodes, located, single⟩ :=
    encodes_of_encodeInstruction wellFormed operation outcome
  obtain ⟨_, _, _, otherEncodes, _, otherSingle⟩ :=
    encodes_of_encodeInstruction otherWellFormed (records.operation.trans operation) otherOutcome
  obtain ⟨rfl, rfl, _⟩ : _ ∧ _ ∧ _ := by simpa using words.symm.trans single
  obtain ⟨_, rfl, _⟩ : _ ∧ _ ∧ _ := by simpa using otherWords.symm.trans otherSingle
  have same : mnemonic.slots.length = record.operands.length := accepted.length_eq
  have tag := moves_lastRelocation parts.relocatable same
  refine ⟨rfl, rfl, ?_, ?_⟩
  · intro still
    exact equal (tag.symm.trans still)
  · intro moving
    obtain ⟨operand, lastOperand, operandMoves⟩ :=
      (Option.any_eq_true _ _).mp (tag.symm.trans moving)
    obtain ⟨slot, last, lastSlot⟩ := Record.lastField?_of_getLast? same lastOperand
    have top := above slot lastSlot
    rw [Nat.shiftRight_eq_div_pow, Nat.shiftRight_eq_div_pow] at top
    refine ⟨record, member, located, slot.width.toNat, ?_, top, ?_⟩
    · simp [Record.movingBits?, operation, lastSlot]
    · exact programs.low_bits encodes otherEncodes operands last operandMoves

end Program.MovedPlaced

/-- A word that does not move. -/
theorem StoredWord.Rebased.still (program : Program) (address location : Int) (contents : Nat) :
    StoredWord.Rebased program address ⟨location, contents, .fixed⟩
      ⟨location + address, contents, .fixed⟩ :=
  ⟨rfl, rfl, fun _ => rfl, by intro impossible; cases impossible⟩

theorem Output.Rebased.append {program : Program} {address : Int}
    {first second otherFirst otherSecond : Output}
    (firsts : Output.Rebased program address first otherFirst)
    (seconds : Output.Rebased program address second otherSecond) :
    Output.Rebased program address (first.append second) (otherFirst.append otherSecond) := by
  rw [Output.Rebased, Output.words_append, Output.words_append]
  exact List.rel_append firsts seconds

theorem StoredWord.run_moved (program : Program) (address start : Int) (contents : List Nat) :
    List.Forall₂ (StoredWord.Rebased program address) (run start contents)
      (run (start + address) contents) := by
  induction contents generalizing start with
  | nil => exact .nil
  | cons word contents induction =>
      have later := induction (start + 1)
      rw [Int.add_right_comm] at later
      rw [run_cons, run_cons]
      exact .cons (StoredWord.Rebased.still program address start word) later

theorem wordOf_add (value address : Int) :
    (wordOf (value + address) : Int) % 2 ^ 16 =
      ((wordOf value : Int) % 2 ^ 16 + address) % 2 ^ 16 := by
  simp only [wordOf, wordCount]
  omega

namespace Program.MovedPlaced

variable {address : Int} {program moved : Program} {record other : Record}

theorem encodeFill (programs : program.MovedPlaced address moved)
    (records : record.Moved address other) (member : record ∈ program.records)
    (operation : record.operation = .directive .fill) :
    Follows (address = 0) (Output.Rebased program address)
      (program.encodeFill record) (moved.encodeFill other) := by
  have parts := programs.parts
  have operands : other.operands = record.operands := records.operands (by simp [operation])
  have firsts : firstOperand other = firstOperand record := by
    simp only [firstOperand, operands]
  simp only [Program.encodeFill, firsts, records.line]
  apply Follows.shared
  intro operand _
  apply (programs.resolve record.line operand).bind
  intro resolved otherResolved _ _ values
  have stored : Follows (address = 0) (Output.Rebased program address)
      (do
        let value ← valueOf resolved .bits
        let location ← locationOf record .print
        pure (oneWord record location (wordOf value) (program.relocation operand Slot.word)))
      (do
        let value ← valueOf otherResolved .bits
        let location ← locationOf other .print
        pure (oneWord other location (wordOf value) (moved.relocation operand Slot.word))) := by
    apply (valueOf_moved values).bind
    intro value otherValue _ _ result
    apply (locationOf_moved records).bind
    intro location otherLocation located _ placed
    subst placed
    refine .ok (.cons ⟨rfl, by simp [relocation, parts.fixed], ?_, ?_⟩ .nil)
    · intro still
      rw [moves_relocation parts.relocatable] at still
      rw [result, still]
      rfl
    · intro moving
      rw [moves_relocation parts.relocatable] at moving
      refine ⟨record, member, locationOf_eq_ok located, 16, ?_, ?_, ?_⟩
      · simp [Record.movingBits?, operation]
      · have small := wordOf_lt value
        have otherSmall := wordOf_lt otherValue
        change wordOf otherValue / 65536 = wordOf value / 65536
        omega
      · rw [result, moving]
        exact wordOf_add value address
  split
  · split
    · exact .error _ _
    · exact stored
  · exact stored

theorem encodeString (program : Program) (records : record.Moved address other)
    (operation : record.operation = .directive .strz) :
    Follows (address = 0) (Output.Rebased program address)
      (Program.encodeString record) (Program.encodeString other) := by
  have operands : other.operands = record.operands := records.operands (by simp [operation])
  have firsts : firstOperand other = firstOperand record := by
    simp only [firstOperand, operands]
  simp only [Program.encodeString, firsts]
  apply Follows.shared
  intro operand _
  cases operand.stringBody? with
  | none => exact .error _ _
  | some body =>
      apply (locationOf_moved records).bind
      intro location otherLocation _ _ placed
      subst placed
      refine .ok ?_
      simp only [Output.Rebased, Output.words, words_wordsFrom]
      exact StoredWord.run_moved program address location (stringWords body)

theorem encodeRecord (programs : program.MovedPlaced address moved)
    (records : record.Moved address other) (wellFormed : record.WellFormed)
    (otherWellFormed : other.WellFormed) (member : record ∈ program.records) :
    Follows (address = 0) (Output.Rebased program address)
      (program.encodeRecord record) (moved.encodeRecord other) := by
  cases operation : record.operation with
  | instruction mnemonic =>
      simp only [Program.encodeRecord, records.operation, operation]
      exact programs.encodeInstruction records wellFormed otherWellFormed member operation
  | unknown name =>
      have accepted := wellFormed.accepted
      rw [operation] at accepted
      exact accepted.elim
  | directive order =>
      simp only [Program.encodeRecord, records.operation, operation]
      cases order with
      | fill => exact programs.encodeFill records member operation
      | strz => exact encodeString program records operation
      | blkw =>
          apply (locationOf_moved records).bind
          intro location otherLocation _ _ _
          exact .ok .nil
      | orig => exact .ok .nil
      | endSegment => exact .ok .nil
      | equ => exact .ok .nil
      | ent => exact .ok .nil
      | ext => exact .ok .nil

theorem encodeRecords {records others : List Record}
    (programs : program.MovedPlaced address moved)
    (pairs : List.Forall₂ (Record.Moved address) records others)
    (wellFormed : ∀ record ∈ records, record.WellFormed)
    (otherWellFormed : ∀ record ∈ others, record.WellFormed)
    (members : ∀ record ∈ records, record ∈ program.records) :
    Follows (address = 0) (Output.Rebased program address)
      (program.encodeRecords records) (moved.encodeRecords others) := by
  induction pairs with
  | nil => exact .ok .nil
  | @cons record other records others head _ induction =>
      simp only [Program.encodeRecords]
      apply (programs.encodeRecord head (wellFormed record (by simp))
        (otherWellFormed other (by simp)) (members record (by simp))).bind
      intro first otherFirst _ _ firstWords
      apply (induction (fun record member => wellFormed record (by simp [member]))
        (fun record member => otherWellFormed record (by simp [member]))
        (fun record member => members record (by simp [member]))).bind
      intro rest otherRest _ _ restWords
      exact .ok (firstWords.append restWords)

theorem encodeEntries (parts : program.Moved address moved) (declarations : List Declaration) :
    Follows (address = 0) (fun _ _ => True) (program.encodeEntries declarations)
      (moved.encodeEntries declarations) := by
  induction declarations with
  | nil => exact .ok trivial
  | cons declaration declarations induction =>
      simp only [Program.encodeEntries, Program.encodeEntry, Program.requireSymbol]
      rcases parts.symbol? declaration.name with
        ⟨absent, _⟩ | ⟨symbol, other, found, alsoFound, _⟩
      · simp only [absent]
        exact .error _ _
      · simp only [found, alsoFound, ok_bind, pure_eq_ok]
        apply induction.bind
        intro _ _ _ _ _
        exact .ok trivial

theorem encodePool {literals others : List Literal}
    (pairs : List.Forall₂ (Literal.Moved address) literals others) :
    Output.Rebased program address (Program.encodePool literals) (Program.encodePool others) := by
  induction pairs with
  | nil => exact .nil
  | @cons literal other _ _ head _ induction =>
      refine .cons ?_ induction
      rw [head.word, head.address]
      exact StoredWord.Rebased.still program address literal.address literal.word

theorem encode {limits : Limits} (programs : program.MovedPlaced address moved)
    (assembled : program.Assembled limits) (otherAssembled : moved.Assembled limits) :
    Follows (address = 0) (Output.Rebased program address)
      program.encode moved.encode := by
  have parts := programs.parts
  simp only [Program.encode, assembled.frozen, otherAssembled.frozen, Bool.not_true,
    Bool.false_eq_true, if_false, parts.entries]
  apply (encodeEntries parts program.entries).bind
  intro entries otherEntries declared otherDeclared _
  apply (programs.encodeRecords parts.records assembled.wellFormed otherAssembled.wellFormed
    (fun _ member => member)).bind
  intro body otherBody _ _ bodies
  refine .ok ?_
  rw [Output.Rebased, words_encoded declared ⟨rfl, rfl⟩, words_encoded otherDeclared ⟨rfl, rfl⟩]
  exact bodies.append (encodePool programs.literals)

end Program.MovedPlaced

theorem Source.Rebased.assemble {address : Int} {limits : Limits} {source moved : Source}
    (rebased : source.Rebased address moved) (positive : limits.Positive) :
    Follows (address = 0)
      (fun result otherResult => Output.Rebased result.1 address result.2 otherResult.2)
      (Lc3Assembler.assemble limits source).outcome
      (Lc3Assembler.assemble limits moved).outcome := by
  simp only [Lc3Assembler.assemble, Traced.outcome_bind, Traced.outcome_lift,
    Traced.outcome_note, ok_bind, Traced.outcome_pure]
  apply (rebased.read positive).bind
  intro program otherProgram read otherRead programs
  apply (programs.encode (Program.assembled_of_read read)
    (Program.assembled_of_read otherRead)).bind
  intro output otherOutput _ _ words
  exact .ok words

/-- The tags of a relocatable segment say exactly how its words differ from
those at a load address, and at address zero it assembles as well. -/
theorem assemble_rebased {address : Int} {limits : Limits} {source moved : Source}
    (positive : limits.Positive) (rebased : source.Rebased address moved) :
    (∀ program output otherProgram otherOutput,
      (assemble limits source).outcome = .ok (program, output) →
      (assemble limits moved).outcome = .ok (otherProgram, otherOutput) →
      List.Forall₂ (StoredWord.Rebased program address) output.words otherOutput.words) ∧
    (address = 0 → ∀ result, (assemble limits source).outcome = .ok result →
      ∃ otherResult, (assemble limits moved).outcome = .ok otherResult) := by
  have follows := rebased.assemble positive
  constructor
  · intro program output otherProgram otherOutput outcome otherOutcome
    obtain ⟨_, same, words⟩ := follows _ outcome (.inr ⟨_, otherOutcome⟩)
    rw [otherOutcome] at same
    cases same
    exact words
  · intro zero result outcome
    obtain ⟨otherResult, succeeds, _⟩ := follows result outcome (.inl zero)
    exact ⟨otherResult, succeeds⟩

/-- A segment with a tagged address, a tagged field and a tagged data word,
opened by a given line. -/
def taggedSegment (opening : String) : Source :=
  .ofLines
    ["; a segment that another one loads",
      opening,
      "FIRST    LD      R1,=#-2",
      "         ADD     R2,R1,FIRST",
      "         LEA     R3,NEXT",
      "NEXT     .FILL   FIRST",
      "         .END    FIRST"]

theorem taggedSegment_rebased :
    Source.Rebased 3 (taggedSegment "SEG      .ORIG") (taggedSegment "SEG      .ORIG   x3") ∧
      ∃ program output otherProgram otherOutput,
        (assemble {} (taggedSegment "SEG      .ORIG")).outcome = .ok (program, output) ∧
        (assemble {} (taggedSegment "SEG      .ORIG   x3")).outcome =
          .ok (otherProgram, otherOutput) ∧
        List.Forall₂ (StoredWord.Rebased program 3) output.words otherOutput.words := by
  have positive : ({} : Limits).Positive := ⟨by decide, by decide, by decide⟩
  have succeeds : (assemble {} (taggedSegment "SEG      .ORIG")).outcome.isOk = true := by
    decide +kernel
  have otherSucceeds :
      (assemble {} (taggedSegment "SEG      .ORIG   x3")).outcome.isOk = true := by
    decide +kernel
  obtain ⟨⟨program, output⟩, outcome⟩ := exists_eq_ok succeeds
  obtain ⟨⟨otherProgram, otherOutput⟩, otherOutcome⟩ := exists_eq_ok otherSucceeds
  have split : SourceLine.split 0 (1 + 1 : Nat) (Text.chomp "SEG      .ORIG") =
      .ok ⟨2, some "SEG", .directive .orig, []⟩ := by decide +kernel
  have otherSplit : SourceLine.split 0 (1 + 1 : Nat) (Text.chomp "SEG      .ORIG   x3") =
      .ok ⟨2, some "SEG", .directive .orig, [⟨"x3", .immediate .hexadecimal 3⟩]⟩ := by
    decide +kernel
  have silent : ∀ comment ∈ ["; a segment that another one loads"],
      SourceLine.isComment (Text.chomp comment) = true := by decide +kernel
  have rebased : Source.Rebased 3 (taggedSegment "SEG      .ORIG")
      (taggedSegment "SEG      .ORIG   x3") :=
    .intro silent (by decide +kernel) (by decide +kernel) split otherSplit rfl rfl rfl rfl rfl rfl
  exact ⟨rebased, program, output, otherProgram, otherOutput, outcome, otherOutcome,
    (assemble_rebased positive rebased).1 _ _ _ _ outcome otherOutcome⟩

end Lc3Assembler
