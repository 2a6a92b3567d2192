import Lc3Assembler.Proofs.BitFields
import Lc3Assembler.Proofs.MemoryLayout

/-!
# Decoding instruction words

The word of an instruction determines its mnemonic, its registers and the value
of its last operand.  An address field holds a page offset, which the address
of the instruction completes, and every other field leaves out its top bit, so
the bits below it give the value back as it was written.
-/

namespace Lc3Assembler

/-- The value of the lowest bits of a word, signed for an operand that is
written in decimal. -/
def Operand.fieldValue (operand : Operand) (bits word : Nat) : Int :=
  match operand.form with
  | .immediate .decimal _ => (BitVec.ofNat bits word).toInt
  | _ => (BitVec.ofNat bits word).toNat

/-- The last slot of an instruction with its operand. -/
def Record.lastField? (record : Record) (mnemonic : Mnemonic) : Option (Slot × Operand) :=
  (mnemonic.slots.zip record.operands).getLast?

/-- The bit that marks the last operand as no register. -/
def Mnemonic.flagOf (mnemonic : Mnemonic) (operands : List Operand) : Nat :=
  if mnemonic.flagsImmediate = true ∧ (operands.getLast?.map Operand.kind) ≠ some .register then
    immediateFlag
  else 0

namespace Mnemonic

theorem slots_of_flagsImmediate {mnemonic : Mnemonic}
    (flags : mnemonic.flagsImmediate = true) :
    mnemonic.slots = [.register 9, .register 6, .registerOrImmediate] := by
  cases mnemonic with
  | add | and => rfl
  | _ => cases flags

/-- Only registers stand above the lowest bits, and only address fields take
literals. -/
theorem slot_of_value (mnemonic : Mnemonic) (kind : Kind) :
    ∀ slot ∈ mnemonic.slots, slot.allows kind = true → kind ≠ .register →
      slot.position = 0 ∧ 2 ≤ slot.width ∧ (kind = .literal → slot.width = addressWidth) := by
  cases mnemonic <;> cases kind <;> decide

theorem registers_before_last (mnemonic : Mnemonic) (kind : Kind) :
    ∀ slot ∈ mnemonic.slots.dropLast, slot.allows kind = true → kind = .register := by
  cases mnemonic <;> cases kind <;> decide

theorem slot_of_register (mnemonic : Mnemonic) :
    ∀ slot ∈ mnemonic.slots, slot.allows .register = true → 3 ≤ slot.width := by
  cases mnemonic <;> decide

theorem flagOf_of_flagsImmediate {mnemonic : Mnemonic} (flags : mnemonic.flagsImmediate = true)
    (first second third : Operand) :
    mnemonic.flagOf [first, second, third] =
      if third.kind = .register then 0 else immediateFlag := by
  by_cases register : third.kind = .register
  · simp [flagOf, register]
  · simp [flagOf, flags, register]

theorem flagOf_eq_zero {mnemonic : Mnemonic} {operands : List Operand}
    (flags : mnemonic.flagsImmediate = false) : mnemonic.flagOf operands = 0 := by
  simp [flagOf, flags]

theorem flagOf_shiftRight (mnemonic : Mnemonic) (operands : List Operand) :
    mnemonic.flagOf operands >>> mnemonic.top = 0 := by
  unfold flagOf
  split
  · rename_i flagged
    rw [top, slots_of_flagsImmediate flagged.1]
    decide
  · exact Nat.zero_shiftRight _

theorem operands_of_flagsImmediate {mnemonic : Mnemonic} {operands : List Operand}
    (flags : mnemonic.flagsImmediate = true)
    (accepted : List.Forall₂ (fun slot operand => slot.allows operand.kind = true)
      mnemonic.slots operands) :
    ∃ first second third, operands = [first, second, third] := by
  have count := accepted.length_eq
  rw [slots_of_flagsImmediate flags] at count
  exact List.length_eq_three.mp count.symm

theorem slot_of_address (mnemonic : Mnemonic) :
    ∀ slot ∈ mnemonic.slots, slot.width = addressWidth →
      slot.allows .register = false ∧ mnemonic.flagsImmediate = false := by
  cases mnemonic <;> decide

end Mnemonic

theorem Record.lastField?_of_getLast? {record : Record} {mnemonic : Mnemonic}
    {operand : Operand} (same : mnemonic.slots.length = record.operands.length)
    (last : record.operands.getLast? = some operand) :
    ∃ slot, record.lastField? mnemonic = some (slot, operand) ∧
      mnemonic.slots.getLast? = some slot := by
  have slots : (record.lastField? mnemonic).map Prod.fst = mnemonic.slots.getLast? := by
    rw [lastField?, ← List.getLast?_map, List.map_fst_zip (Nat.le_of_eq same)]
  have operands : (record.lastField? mnemonic).map Prod.snd = record.operands.getLast? := by
    rw [lastField?, ← List.getLast?_map, List.map_snd_zip (Nat.le_of_eq same.symm)]
  rw [last] at operands
  obtain ⟨⟨slot, _⟩, found, rfl⟩ := Option.map_eq_some_iff.mp operands
  exact ⟨slot, found, by rw [← slots, found]; rfl⟩

namespace Program

theorem Denotes.unique {program : Program} {operand : Operand} {first second : Int}
    (denotes : program.Denotes operand first) (also : program.Denotes operand second) :
    first = second := by
  have firstResolved : program.resolve 0 operand = .ok (.value first) :=
    resolve_eq_value_iff.mpr denotes
  have secondResolved : program.resolve 0 operand = .ok (.value second) :=
    resolve_eq_value_iff.mpr also
  simpa using firstResolved.symm.trans secondResolved

theorem DenotesExternal.not_denotes {program : Program} {operand : Operand} {value : Int}
    (external : program.DenotesExternal operand) : ¬ program.Denotes operand value := by
  intro denotes
  have externalResolved : program.resolve 0 operand = .ok .external :=
    resolve_eq_external_iff.mpr external
  have resolved : program.resolve 0 operand = .ok (.value value) :=
    resolve_eq_value_iff.mpr denotes
  simpa using externalResolved.symm.trans resolved

theorem packOperands_shiftRight {program : Program} {record : Record} {slots : List Slot}
    {operands : List Operand} {word packed level : Nat}
    (below : ∀ slot ∈ slots, slot.top ≤ level)
    (outcome : program.packOperands record slots operands word = .ok packed) :
    packed >>> level = word >>> level := by
  induction operands generalizing slots word with
  | nil =>
      have same : word = packed := by simpa [packOperands] using outcome
      rw [same]
  | cons operand operands induction =>
      cases slots with
      | nil => cases outcome
      | cons slot slots =>
          simp only [packOperands, bind_eq_ok_iff] at outcome
          obtain ⟨_, _, _, _, value, _, rest⟩ := outcome
          have later := induction (fun other member => below other (by simp [member])) rest
          rw [later, Nat.shiftRight_or_distrib,
            Slot.pack_shiftRight (below slot (by simp)) value, Nat.or_zero]

/-- What a slot holds for its operand, and what was checked before. -/
def Packs (program : Program) (record : Record) (word : Nat) (slot : Slot)
    (operand : Operand) : Prop :=
  ∃ value, program.DataValue operand value ∧ slot.read word = lowBits slot.width value ∧
    (program.Denotes operand value →
      checkRange record.line operand value slot = .ok () ∧
        checkPage record operand (.value value) slot = .ok ())

theorem packs_of_packOperands {program : Program} {record : Record} {slots : List Slot}
    {operands : List Operand} {word packed : Nat} (ordered : slots.Pairwise Slot.Above)
    (clear : ∀ slot ∈ slots, slot.read word = 0)
    (outcome : program.packOperands record slots operands word = .ok packed) :
    ∀ slot operand, (slot, operand) ∈ slots.zip operands →
      program.Packs record packed slot operand := by
  induction operands generalizing slots word with
  | nil => simp
  | cons operand operands induction =>
      cases slots with
      | nil => cases outcome
      | cons slot slots =>
          simp only [packOperands, bind_eq_ok_iff] at outcome
          obtain ⟨resolved, resolution, _, checked, value, valued, rest⟩ := outcome
          obtain ⟨above, orderedRest⟩ := List.pairwise_cons.mp ordered
          have clearRest : ∀ other ∈ slots, other.read (word ||| slot.pack value) = 0 := by
            intro other member
            rw [Slot.read_or, clear other (by simp [member]),
              Slot.Above.read_pack (above other member), Nat.or_zero]
          have held : slot.read packed = lowBits slot.width value := by
            have kept : packed >>> slot.position.toNat =
                (word ||| slot.pack value) >>> slot.position.toNat :=
              packOperands_shiftRight above rest
            calc
              slot.read packed = slot.read (word ||| slot.pack value) := by
                rw [Slot.read, kept, Slot.read]
              _ = lowBits slot.width value := by
                rw [Slot.read_or, clear slot (by simp), Slot.read_pack, Nat.zero_or]
          intro other candidate member
          rw [List.zip_cons_cons, List.mem_cons] at member
          rcases member with first | later
          · obtain ⟨rfl, rfl⟩ := Prod.mk.inj first
            refine ⟨value, dataValue_of_resolve resolution valued, held, ?_⟩
            intro denotes
            have known : resolved = .value value := by
              simpa using resolution.symm.trans (resolve_eq_value_iff.mpr denotes)
            rw [known] at checked
            simp only [checkField, bind_eq_ok_iff] at checked
            obtain ⟨_, range, page⟩ := checked
            exact ⟨range, page⟩
          · exact induction orderedRest clearRest rest other candidate later

theorem flagImmediate_eq_ok {mnemonic : Mnemonic} {operands : List Operand}
    {packed contents : Nat}
    (outcome : flagImmediate mnemonic operands packed = .ok contents) :
    contents = packed ||| mnemonic.flagOf operands := by
  unfold flagImmediate at outcome
  split at outcome
  · rename_i flags
    split at outcome
    · cases outcome
    · rename_i operand last
      cases outcome
      by_cases register : operand.kind = .register
      · simp [Mnemonic.flagOf, last, register]
      · simp [Mnemonic.flagOf, flags, last, register]
  · rename_i flags
    cases outcome
    simp [Mnemonic.flagOf, flags]

/-- An encoded instruction: the bits above the slots are those of the template,
and every slot holds its operand and the flag. -/
structure Encodes (program : Program) (record : Record) (mnemonic : Mnemonic)
    (word : Nat) : Prop where
  parsed : ∀ operand ∈ record.operands, operand.Parsed
  accepted : List.Forall₂ (fun slot operand => slot.allows operand.kind = true)
    mnemonic.slots record.operands
  opcode : word >>> mnemonic.top = mnemonic.template >>> mnemonic.top
  fields : ∀ slot operand, (slot, operand) ∈ mnemonic.slots.zip record.operands →
    ∃ value, program.DataValue operand value ∧
      slot.read word =
        lowBits slot.width value ||| slot.read (mnemonic.flagOf record.operands) ∧
      (program.Denotes operand value →
        checkRange record.line operand value slot = .ok () ∧
          checkPage record operand (.value value) slot = .ok ())

theorem encodes_of_encodeInstruction {program : Program} {record : Record}
    {mnemonic : Mnemonic} {output : Output} (wellFormed : record.WellFormed)
    (operation : record.operation = .instruction mnemonic)
    (outcome : program.encodeInstruction record mnemonic = .ok output) :
    ∃ word address relocation,
      program.Encodes record mnemonic word ∧ record.location = some address ∧
      output.words = [⟨address, word, relocation⟩] := by
  obtain ⟨packed, word, address, packing, flagged, located, words⟩ :=
    encodeInstruction_eq_ok outcome
  refine ⟨word, address, _, ?_, located, words⟩
  have accepted := wellFormed.accepted
  rw [operation] at accepted
  rw [flagImmediate_eq_ok flagged]
  refine ⟨wellFormed.parsed, accepted, ?_, ?_⟩
  · rw [Nat.shiftRight_or_distrib, Mnemonic.flagOf_shiftRight, Nat.or_zero]
    exact packOperands_shiftRight mnemonic.slots_below packing
  · intro slot operand member
    obtain ⟨value, valued, held, checked⟩ := packs_of_packOperands mnemonic.slots_pairwise
      mnemonic.read_template packing slot operand member
    exact ⟨value, valued, by rw [Slot.read_or, held], checked⟩

theorem checkRange_eq_ok {line value : Int} {operand : Operand} {slot : Slot}
    (ranged : operand.kind = .immediate ∨ operand.kind = .symbol)
    (checked : checkRange line operand value slot = .ok ()) :
    ∃ range, FieldRange.of? slot.width operand.form.base? = some range ∧
      range.contains value = true := by
  unfold checkRange at checked
  unfold Operand.kind at ranged
  cases form : operand.form with
  | immediate | symbol =>
      simp only [form] at checked
      split at checked
      · cases checked
      · rename_i range found
        split at checked
        · rename_i inside
          exact ⟨range, found, inside⟩
        · cases checked
  | _ => simp [form, Form.kind] at ranged

theorem checkPage_eq_ok {record : Record} {operand : Operand} {slot : Slot}
    {address value : Int} (paged : slot.width = addressWidth)
    (located : record.location = some address) (notRegister : operand.kind ≠ .register)
    (checked : checkPage record operand (.value value) slot = .ok ()) :
    pageOf (address + 1) = pageOf value := by
  simp only [checkPage, paged, notRegister, ne_eq, not_false_eq_true, and_self, if_true,
    locationOf, located, valueOf, ok_bind] at checked
  split at checked
  · assumption
  · cases checked

/-- The rest of the page and the offset on it make up the address. -/
theorem page_or_offset {next value : Int} {offset : Nat} (nonnegative : 0 ≤ next)
    (samePage : pageOf next = pageOf value) (held : offset = lowBits addressWidth value) :
    ((next.toNat >>> 9 <<< 9 ||| offset : Nat) : Int) = value := by
  have small : offset < 2 ^ 9 := held ▸ lowBits_lt addressWidth value
  have remainder : (offset : Int) = value % 512 := by
    rw [held, lowBits_eq]
    change ((value % 512).toNat : Int) = value % 512
    omega
  rw [← Nat.shiftLeft_add_eq_or_of_lt small, Nat.shiftLeft_eq, Nat.shiftRight_eq_div_pow]
  simp only [pageOf] at samePage
  change ((next.toNat / 512 * 512 + offset : Nat) : Int) = value
  omega

namespace Encodes

variable {program : Program} {record : Record} {mnemonic : Mnemonic} {word : Nat}
  {slot : Slot} {operand : Operand}

theorem allowed (encodes : program.Encodes record mnemonic word)
    (member : (slot, operand) ∈ mnemonic.slots.zip record.operands) :
    slot.allows operand.kind = true :=
  (List.forall₂_iff_zip.mp encodes.accepted).2 member

/-- The flag is no part of a slot with a register. -/
theorem read_flagOf (encodes : program.Encodes record mnemonic word)
    (member : (slot, operand) ∈ mnemonic.slots.zip record.operands)
    (register : operand.kind = .register) :
    slot.read (mnemonic.flagOf record.operands) = 0 := by
  cases flags : mnemonic.flagsImmediate with
  | false => simp [Mnemonic.flagOf_eq_zero flags, Slot.read]
  | true =>
      obtain ⟨first, second, third, operands⟩ :=
        Mnemonic.operands_of_flagsImmediate flags encodes.accepted
      rw [operands, Mnemonic.slots_of_flagsImmediate flags] at member
      rw [operands, Mnemonic.flagOf_of_flagsImmediate flags]
      split
      · simp [Slot.read]
      · rename_i last
        simp only [List.zip_cons_cons, List.zip_nil_left, List.mem_cons, Prod.mk.injEq,
          List.not_mem_nil, or_false] at member
        rcases member with ⟨rfl, rfl⟩ | ⟨rfl, rfl⟩ | ⟨rfl, rfl⟩
        · decide
        · decide
        · exact absurd register last

theorem read_register {number : Nat} (encodes : program.Encodes record mnemonic word)
    (member : (slot, operand) ∈ mnemonic.slots.zip record.operands)
    (form : operand.form = .register number) :
    number < 8 ∧ slot.read word = number ∧ word >>> slot.position.toNat % 8 = number := by
  obtain ⟨slotMember, operandMember⟩ := List.of_mem_zip member
  have kind : operand.kind = .register := by simp [Operand.kind, form, Form.kind]
  have small := (encodes.parsed operand operandMember).register_lt form
  have allowed := encodes.allowed member
  rw [kind] at allowed
  have wide := mnemonic.slot_of_register slot slotMember allowed
  obtain ⟨value, valued, held, _⟩ := encodes.fields slot operand member
  have known : value = number := by
    rcases valued with denotes | ⟨external, _⟩
    · exact denotes.unique (.register form)
    · exact absurd external.1 (by simp [form])
  obtain ⟨extra, width⟩ := Nat.exists_eq_add_of_le
    (show 3 ≤ slot.width.toNat by omega)
  have split : 2 ^ slot.width.toNat = 8 * 2 ^ extra := by rw [width, Nat.pow_add]
  have positive := Nat.two_pow_pos extra
  have read : slot.read word = number := by
    have bound : (number : Int) < 2 ^ slot.width.toNat := by
      have bigger : 8 * 1 ≤ 8 * 2 ^ extra := Nat.mul_le_mul_left 8 positive
      exact_mod_cast (show number < 2 ^ slot.width.toNat by omega)
    rw [held, encodes.read_flagOf member kind, Nat.or_zero, known, lowBits_eq,
      Int.emod_eq_of_lt (Int.natCast_nonneg number) bound, Int.toNat_natCast]
  refine ⟨small, read, ?_⟩
  rw [Slot.read, split] at read
  rw [← Nat.mod_mul_right_mod _ 8 (2 ^ extra), read, Nat.mod_eq_of_lt small]

theorem third_operand (encodes : program.Encodes record mnemonic word)
    (flags : mnemonic.flagsImmediate = true) :
    ∃ operand, record.operands[2]? = some operand ∧
      (word.testBit 5 = true ↔ operand.kind ≠ .register) := by
  obtain ⟨first, second, third, operands⟩ :=
    Mnemonic.operands_of_flagsImmediate flags encodes.accepted
  refine ⟨third, by simp [operands], ?_⟩
  have member : (Slot.registerOrImmediate, third) ∈ mnemonic.slots.zip record.operands := by
    simp [operands, Mnemonic.slots_of_flagsImmediate flags]
  have bit : word.testBit 5 = (Slot.registerOrImmediate.read word).testBit 5 := by
    rw [Slot.read_lowest rfl]
    change word.testBit 5 = (word % 2 ^ 6).testBit 5
    rw [Nat.testBit_mod_two_pow]
    simp
  by_cases register : third.kind = .register
  · obtain ⟨number, form⟩ := Form.kind_eq_register_iff.mp register
    obtain ⟨small, read, _⟩ := encodes.read_register member form
    have clear : number.testBit 5 = false := Nat.testBit_lt_two_pow (by omega)
    simp [bit, read, clear, register]
  · obtain ⟨value, _, held, _⟩ := encodes.fields _ _ member
    have flag : (Slot.registerOrImmediate.read (mnemonic.flagOf record.operands)).testBit 5 =
        true := by
      rw [operands, Mnemonic.flagOf_of_flagsImmediate flags, if_neg register]
      decide
    simp [bit, held, Nat.testBit_or, flag, register]

theorem last_of_flagsImmediate (encodes : program.Encodes record mnemonic word)
    (last : record.lastField? mnemonic = some (slot, operand))
    (flags : mnemonic.flagsImmediate = true) :
    slot = .registerOrImmediate ∧
      ∃ first second, record.operands = [first, second, operand] := by
  obtain ⟨first, second, third, operands⟩ :=
    Mnemonic.operands_of_flagsImmediate flags encodes.accepted
  rw [Record.lastField?, operands, Mnemonic.slots_of_flagsImmediate flags] at last
  obtain ⟨rfl, rfl⟩ : Slot.registerOrImmediate = slot ∧ third = operand := by
    simpa using last
  exact ⟨rfl, first, second, operands⟩

theorem flagOf_last (encodes : program.Encodes record mnemonic word)
    (last : record.lastField? mnemonic = some (slot, operand))
    (notRegister : operand.kind ≠ .register) :
    slot.read (mnemonic.flagOf record.operands) =
        (if mnemonic.flagsImmediate then Mnemonic.immediateFlag else 0) ∧
      slot.read (mnemonic.flagOf record.operands) % 2 ^ (slot.width.toNat - 1) = 0 := by
  cases flags : mnemonic.flagsImmediate with
  | false => simp [Mnemonic.flagOf_eq_zero flags, Slot.read]
  | true =>
      obtain ⟨rfl, first, second, operands⟩ := encodes.last_of_flagsImmediate last flags
      rw [operands, Mnemonic.flagOf_of_flagsImmediate flags, if_neg notRegister]
      decide

theorem value_of_denotes {value : Int} (encodes : program.Encodes record mnemonic word)
    (member : (slot, operand) ∈ mnemonic.slots.zip record.operands)
    (denotes : program.Denotes operand value) :
    slot.read word =
        lowBits slot.width value ||| slot.read (mnemonic.flagOf record.operands) ∧
      checkRange record.line operand value slot = .ok () ∧
      checkPage record operand (.value value) slot = .ok () := by
  obtain ⟨other, valued, held, checked⟩ := encodes.fields slot operand member
  have known : program.Denotes operand other := by
    rcases valued with known | ⟨external, _⟩
    · exact known
    · exact absurd denotes external.not_denotes
  obtain rfl := known.unique denotes
  exact ⟨held, checked known⟩

theorem page_of_last {address value : Int} (encodes : program.Encodes record mnemonic word)
    (located : record.location = some address) (nonnegative : 0 ≤ address)
    (last : record.lastField? mnemonic = some (slot, operand))
    (paged : slot.width = addressWidth) (denotes : program.Denotes operand value) :
    (((address + 1).toNat >>> 9 <<< 9 ||| word % 512 : Nat) : Int) = value := by
  have member := List.mem_of_getLast? last
  have allowed := encodes.allowed member
  obtain ⟨slotMember, _⟩ := List.of_mem_zip member
  obtain ⟨noRegister, unflagged⟩ := mnemonic.slot_of_address slot slotMember paged
  have notRegister : operand.kind ≠ .register := by
    intro register
    rw [register, noRegister] at allowed
    cases allowed
  have lowest := (mnemonic.slot_of_value operand.kind slot slotMember allowed notRegister).1
  obtain ⟨held, _, page⟩ := encodes.value_of_denotes member denotes
  have offset : word % 512 = lowBits addressWidth value := by
    rw [Mnemonic.flagOf_eq_zero unflagged, Slot.read_lowest lowest, Slot.read_lowest lowest,
      Nat.zero_mod, Nat.or_zero, paged] at held
    exact held
  exact page_or_offset (by omega) (checkPage_eq_ok paged located notRegister page) offset

theorem field_of_last {value : Int} (encodes : program.Encodes record mnemonic word)
    (last : record.lastField? mnemonic = some (slot, operand))
    (narrow : slot.width ≠ addressWidth) (notRegister : operand.kind ≠ .register)
    (denotes : program.Denotes operand value) :
    operand.fieldValue (slot.width.toNat - 1) word = value := by
  have member := List.mem_of_getLast? last
  obtain ⟨lowest, wide, literal⟩ := mnemonic.slot_of_value operand.kind slot
    (List.of_mem_zip member).1 (encodes.allowed member) notRegister
  obtain ⟨held, range, _⟩ := encodes.value_of_denotes member denotes
  obtain ⟨bits, count⟩ : ∃ bits : Nat, slot.width = bits + 2 :=
    ⟨(slot.width - 2).toNat, by omega⟩
  have countUnsigned : slot.width = (bits + 1 : Nat) + 1 := by omega
  have width : slot.width.toNat = bits + 2 := by omega
  have flag := (encodes.flagOf_last last notRegister).2
  have same : ((word % 2 ^ (bits + 1) : Nat) : Int) = value % 2 ^ (bits + 1) := by
    have cut : word % 2 ^ (bits + 1) = lowBits slot.width value % 2 ^ (bits + 1) := by
      calc
        word % 2 ^ (bits + 1) = slot.read word % 2 ^ (bits + 1) := by
          rw [Slot.read_lowest lowest, width,
            Nat.mod_mod_of_dvd _ (Nat.pow_dvd_pow 2 (Nat.le_succ _))]
        _ = lowBits slot.width value % 2 ^ (bits + 1) := by
          rw [width] at flag
          rw [held, Nat.or_mod_two_pow, show bits + 1 = bits + 2 - 1 from rfl, flag, Nat.or_zero]
    rw [cut, natCast_lowBits_mod value (by omega)]
  have unsigned (low : 0 ≤ value) (high : value < 2 ^ (bits + 1)) :
      (((BitVec.ofNat (bits + 1) word).toNat : Nat) : Int) = value := by
    rw [BitVec.toNat_ofNat, same, Int.emod_eq_of_lt low high]
  rw [width]
  change operand.fieldValue (bits + 1) word = value
  unfold Operand.fieldValue
  cases denotes with
  | register form => exact absurd (by simp [Operand.kind, form, Form.kind]) notRegister
  | literal form _ => exact absurd (literal (by simp [Operand.kind, form, Form.kind])) narrow
  | symbol form _ =>
      simp only [form]
      obtain ⟨field, found, inside⟩ :=
        checkRange_eq_ok (.inr (by simp [Operand.kind, form, Form.kind])) range
      simp only [form, Form.base?] at found
      obtain ⟨low, high⟩ := FieldRange.of?_unsigned narrow countUnsigned (by simp) found inside
      exact unsigned low high
  | @immediate base _ form =>
      obtain ⟨field, found, inside⟩ :=
        checkRange_eq_ok (.inl (by simp [Operand.kind, form, Form.kind])) range
      simp only [form, Form.base?] at found
      cases base with
      | decimal =>
          simp only [form]
          obtain ⟨low, high⟩ := FieldRange.of?_decimal narrow count found inside
          exact toInt_ofNat_of_emod same low high
      | hexadecimal =>
          simp only [form]
          obtain ⟨low, high⟩ := FieldRange.of?_unsigned narrow countUnsigned (by simp) found inside
          exact unsigned low high

/-- A symbol beside the flag leaves the flag's bit alone. -/
theorem read_flagged {value : Int} (encodes : program.Encodes record mnemonic word)
    (last : record.lastField? mnemonic = some (slot, operand))
    (flags : mnemonic.flagsImmediate = true) (form : operand.form = .symbol)
    (denotes : program.Denotes operand value) : (slot.read word : Int) = value + 32 := by
  have kind : operand.kind = .symbol := by simp [Operand.kind, form, Form.kind]
  obtain ⟨rfl, _⟩ := encodes.last_of_flagsImmediate last flags
  obtain ⟨held, range, _⟩ := encodes.value_of_denotes (List.mem_of_getLast? last) denotes
  obtain ⟨field, found, inside⟩ := checkRange_eq_ok (.inr kind) range
  simp only [form, Form.base?] at found
  have width : Slot.registerOrImmediate.width = (5 : Nat) + 1 := rfl
  obtain ⟨low, high⟩ := FieldRange.of?_unsigned (by decide) width (by simp) found inside
  have fits : (lowBits Slot.registerOrImmediate.width value : Int) = value :=
    lowBits_of_fits low (Int.lt_trans high (by decide))
  rw [held, (encodes.flagOf_last last (by simp [kind])).1, if_pos flags,
    Mnemonic.or_immediateFlag (by omega)]
  omega

theorem external_of_last (encodes : program.Encodes record mnemonic word)
    (last : record.lastField? mnemonic = some (slot, operand))
    (external : program.DenotesExternal operand) :
    slot.read word = if mnemonic.flagsImmediate then Mnemonic.immediateFlag else 0 := by
  have member := List.mem_of_getLast? last
  have notRegister : operand.kind ≠ .register := by
    simp [Operand.kind, external.1, Form.kind]
  obtain ⟨value, valued, held, _⟩ := encodes.fields slot operand member
  have zero : value = 0 := by
    rcases valued with denotes | ⟨_, zero⟩
    · exact absurd denotes external.not_denotes
    · exact zero
  rw [held, (encodes.flagOf_last last notRegister).1, zero, lowBits_eq, Int.zero_emod,
    Int.toNat_zero, Nat.zero_or]

end Encodes

/-- What the word of an instruction says about its record. -/
structure Decodes (program : Program) (record : Record) (mnemonic : Mnemonic) (address : Int)
    (word : Nat) : Prop where
  bounded : word ≤ 0xFFFF
  /-- The word alone tells the instruction. -/
  determined : Mnemonic.ofWord? word = some mnemonic
  registers : ∀ slot operand number,
    (slot, operand) ∈ mnemonic.slots.zip record.operands → operand.form = .register number →
      word >>> slot.position.toNat % 8 = number ∧ slot.read word = number
  flag : mnemonic.flagsImmediate = true →
    ∃ operand, record.operands[2]? = some operand ∧
      (word.testBit 5 = true ↔ operand.kind ≠ .register)
  /-- The page of the next instruction and the offset make up an address. -/
  page : ∀ slot operand value, record.lastField? mnemonic = some (slot, operand) →
    slot.width = addressWidth → program.Denotes operand value →
      (((address + 1).toNat >>> 9 <<< 9 ||| word % 512 : Nat) : Int) = value
  /-- Any other field holds its value below the top bit. -/
  field : ∀ slot operand value, record.lastField? mnemonic = some (slot, operand) →
    slot.width ≠ addressWidth → operand.kind ≠ .register → program.Denotes operand value →
      operand.fieldValue (slot.width.toNat - 1) word = value
  /-- The field of an external symbol is left to the linker. -/
  external : ∀ slot operand, record.lastField? mnemonic = some (slot, operand) →
    program.DenotesExternal operand →
      slot.read word = if mnemonic.flagsImmediate then Mnemonic.immediateFlag else 0

theorem Encodes.bounded {program : Program} {record : Record} {mnemonic : Mnemonic}
    {word : Nat} (encodes : program.Encodes record mnemonic word) : word ≤ 0xFFFF := by
  have high : word >>> 16 = 0 := by
    have lower := congrArg (· >>> (16 - mnemonic.top)) encodes.opcode
    have below : mnemonic.top ≤ 16 := Nat.le_trans mnemonic.top_le (by decide)
    simp only [← Nat.shiftRight_add, Nat.add_sub_cancel' below] at lower
    rw [lower, Nat.shiftRight_eq_div_pow]
    exact Nat.div_eq_of_lt mnemonic.template_lt
  rw [Nat.shiftRight_eq_div_pow] at high
  omega

theorem Encodes.decodes {program : Program} {record : Record} {mnemonic : Mnemonic}
    {address : Int} {word : Nat} (encodes : program.Encodes record mnemonic word)
    (located : record.location = some address) (nonnegative : 0 ≤ address) :
    program.Decodes record mnemonic address word := by
  constructor
  · exact encodes.bounded
  · exact Mnemonic.ofWord?_of_shiftRight encodes.opcode
  · intro slot operand number member form
    obtain ⟨_, whole, three⟩ := encodes.read_register member form
    exact ⟨three, whole⟩
  · exact encodes.third_operand
  · intro slot operand value last paged denotes
    exact encodes.page_of_last located nonnegative last paged denotes
  · intro slot operand value last narrow notRegister denotes
    exact encodes.field_of_last last narrow notRegister denotes
  · intro slot operand last external
    exact encodes.external_of_last last external

end Program

/-- Every instruction of a program that was read and encoded has one word, and
that word decodes to the instruction. -/
theorem encode_decodes {limits : Limits} {source : Source} {program : Program}
    {output : Output} {record : Record} {mnemonic : Mnemonic}
    (read : (Program.read limits source).outcome = .ok program)
    (encoded : program.encode = .ok output) (member : record ∈ program.records)
    (operation : record.operation = .instruction mnemonic) :
    ∃ stored ∈ output.words,
      record.location = some stored.address ∧
      (∀ other ∈ output.words, other.address = stored.address → other = stored) ∧
      program.Decodes record mnemonic stored.address stored.contents := by
  have assembled := Program.assembled_of_read read
  have layout := Program.memoryLayout_of_encode assembled encoded
  obtain ⟨outputs, each, words⟩ := Program.encode_eq_ok assembled encoded
  obtain ⟨part, partMember, outcome⟩ := exists_right_of_forall₂ each member
  simp only [Program.encodeRecord, operation] at outcome
  obtain ⟨word, address, relocation, encodes, located, single⟩ :=
    Program.encodes_of_encodeInstruction (assembled.wellFormed record member) operation outcome
  have stored : ⟨address, word, relocation⟩ ∈ output.words := by
    rw [words]
    exact List.mem_append_left _ (List.mem_flatMap.mpr ⟨part, partMember, by simp [single]⟩)
  have nonnegative : 0 ≤ address := by
    have inside := layout.partitioned.mem_iff.mp
      (List.mem_append_left _ (List.mem_map_of_mem stored))
    have low := (mem_addressesFrom.mp inside).1
    exact Int.le_trans assembled.nonnegative low
  refine ⟨_, stored, located, ?_, encodes.decodes located nonnegative⟩
  intro other otherMember same
  have distinct : (output.words.map StoredWord.address).Nodup :=
    layout.increasing.imp Int.ne_of_lt
  exact List.inj_on_of_nodup_map distinct otherMember stored same

/-- A segment whose first instruction is the last one of its page. -/
def pageEdge : Source :=
  .ofLines
    ["EDGE     .ORIG   x31FF",
      "         LD      R5,=#-16",
      "         ADD     R1,R5,#-16",
      "         TRAP    x25",
      "         .END"]

theorem pageEdge_decodes :
    ∃ program output, ∃ record ∈ program.records,
      (Program.read {} pageEdge).outcome = .ok program ∧ program.encode = .ok output ∧
      record.operation = .instruction .ld ∧
      ∃ stored ∈ output.words,
        record.location = some stored.address ∧
        (∀ other ∈ output.words, other.address = stored.address → other = stored) ∧
        program.Decodes record .ld stored.address stored.contents := by
  have succeeds : (Program.read {} pageEdge).outcome.isOk = true := by decide +kernel
  obtain ⟨program, read⟩ := exists_eq_ok succeeds
  have checked : ((Program.read {} pageEdge).outcome.toOption.any fun program =>
      program.encode.isOk &&
        program.records.any fun record => record.operation = .instruction .ld) = true := by
    decide +kernel
  rw [read] at checked
  obtain ⟨encodes, used⟩ := (Bool.and_eq_true _ _).mp checked
  obtain ⟨output, encoded⟩ := exists_eq_ok encodes
  obtain ⟨record, member, operation⟩ := List.any_eq_true.mp used
  have load : record.operation = .instruction .ld := of_decide_eq_true operation
  exact ⟨program, output, record, member, read, encoded, load,
    encode_decodes read encoded member load⟩

end Lc3Assembler
