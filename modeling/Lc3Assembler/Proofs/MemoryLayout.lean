import Lc3Assembler.Proofs.StoredWords

/-!
# Memory layout of object files

The words of an encoded program and the blocks it reserves fill the addresses
from the first one up to the end of the segment, each of them once, and no word
is stored at the highest address.  Reading counts the words of a record and
encoding stores them, so the layout rests on the two agreeing for every record:
`Program.Stores` says what a record stores, and `Stores.addresses` that this is
as much as was counted.
-/

namespace Lc3Assembler

/-- The addresses that a record reserves without a word. -/
def Record.blockAddresses (record : Record) : List Int :=
  match record.operation, record.location with
  | .directive .blkw, some location => addressesFrom location record.size.toNat
  | _, _ => []

theorem Record.Sized.silent {record : Record} {order : Directive} (sized : record.Sized)
    (operation : record.operation = .directive order) (silent : order.storage = false) :
    record.size = 0 := by
  simp only [Record.Sized, operation] at sized
  cases order <;> simp_all [Directive.storage]

namespace Program

/-- The addresses of all reserved blocks. -/
def blockAddresses (program : Program) : List Int :=
  program.records.flatMap Record.blockAddresses

/-- The value of a data word: that of its operand, and zero for a symbol of
another segment. -/
def DataValue (program : Program) (operand : Operand) (value : Int) : Prop :=
  program.Denotes operand value ∨ (program.DenotesExternal operand ∧ value = 0)

/-- The words of a string and the zero that ends it. -/
def stringContents (body : List Char) : List Nat :=
  body.map (fun character => character.toNat % 0x10000) ++ [0]

/-- The words that a record owns. -/
inductive Stores (program : Program) (record : Record) : List StoredWord → Prop where
  | instruction {mnemonic : Mnemonic} {address : Int} {contents : Nat}
      {relocation : Relocation}
      (operation : record.operation = .instruction mnemonic)
      (located : record.location = some address) :
      Stores program record [{ address, contents, relocation }]
  | fill {operand : Operand} {address value : Int} {relocation : Relocation}
      (operation : record.operation = .directive .fill)
      (located : record.location = some address)
      (operands : record.operands = [operand])
      (valued : program.DataValue operand value) :
      Stores program record [{ address, contents := wordOf value, relocation }]
  | string {operand : Operand} {body : List Char} {address : Int}
      (operation : record.operation = .directive .strz)
      (located : record.location = some address)
      (operands : record.operands = [operand])
      (characters : operand.stringBody? = some body) :
      Stores program record (StoredWord.run address (stringContents body))
  | nothing {order : Directive}
      (operation : record.operation = .directive order)
      (notFill : order ≠ .fill) (notString : order ≠ .strz) :
      Stores program record []

theorem locationOf_eq_ok {record : Record} {use : LocationUse} {address : Int}
    (outcome : locationOf record use = .ok address) : record.location = some address := by
  unfold locationOf at outcome
  split at outcome
  · rename_i located
    cases outcome
    exact located
  · cases outcome

theorem encodeInstruction_eq_ok {program : Program} {record : Record} {mnemonic : Mnemonic}
    {output : Output} (outcome : program.encodeInstruction record mnemonic = .ok output) :
    ∃ packed contents address,
      program.packOperands record mnemonic.slots record.operands mnemonic.template =
        .ok packed ∧
      flagImmediate mnemonic record.operands packed = .ok contents ∧
      record.location = some address ∧
      output.words =
        [⟨address, contents, program.lastRelocation mnemonic.slots record.operands⟩] := by
  simp only [encodeInstruction, bind_eq_ok_iff, pure_eq_ok, Except.ok.injEq] at outcome
  obtain ⟨packed, packing, contents, flagged, address, located, rfl⟩ := outcome
  exact ⟨packed, contents, address, packing, flagged, locationOf_eq_ok located, rfl⟩

theorem firstOperand_of_arity {record : Record} {operand : Operand}
    (single : record.operands.length ≤ 1) (first : firstOperand record = .ok operand) :
    record.operands = [operand] := by
  unfold firstOperand at first
  split at first
  · rename_i head tail operands
    cases first
    rw [operands, List.length_cons] at single
    have alone : tail = [] :=
      List.eq_nil_of_length_eq_zero (Nat.le_zero.mp (Nat.le_of_succ_le_succ single))
    rw [operands, alone]
  · cases first

theorem dataValue_of_resolve {program : Program} {line value : Int} {operand : Operand}
    {resolved : Resolved} {use : ValueUse}
    (resolution : program.resolve line operand = .ok resolved)
    (valued : valueOf resolved use = .ok value) : program.DataValue operand value := by
  cases resolved with
  | value known =>
      cases valued
      exact .inl (resolve_eq_value_iff.mp resolution)
  | external =>
      cases valued
      exact .inr ⟨resolve_eq_external_iff.mp resolution, rfl⟩
  | nothing => cases valued

theorem encodeFill_eq_ok {program : Program} {record : Record} {output : Output}
    (outcome : program.encodeFill record = .ok output) :
    ∃ operand value address,
      firstOperand record = .ok operand ∧ program.DataValue operand value ∧
      record.location = some address ∧
      output = oneWord record address (wordOf value)
        (program.relocation operand Slot.word) := by
  simp only [encodeFill, bind_eq_ok_iff] at outcome
  obtain ⟨operand, first, resolved, resolution, checked⟩ := outcome
  have stored : ∃ value, valueOf resolved .bits = .ok value ∧
      ∃ address, locationOf record .print = .ok address ∧
        oneWord record address (wordOf value)
          (program.relocation operand Slot.word) = output := by
    split at checked
    · split at checked
      · cases checked
      · simpa only [bind_eq_ok_iff, pure_eq_ok, Except.ok.injEq] using checked
    · simpa only [bind_eq_ok_iff, pure_eq_ok, Except.ok.injEq] using checked
  obtain ⟨value, valued, address, located, rfl⟩ := stored
  exact ⟨operand, value, address, first, dataValue_of_resolve resolution valued,
    locationOf_eq_ok located, rfl⟩

theorem words_wordsFrom (address : Int) (contents : List Nat) :
    ((wordsFrom address contents).map fun word =>
      ObjectRecord.word word.1 word.2 .fixed).filterMap ObjectRecord.storedWord? =
      StoredWord.run address contents := by
  induction contents generalizing address with
  | nil => rfl
  | cons word contents induction =>
      rw [StoredWord.run_cons, ← induction (address + 1)]
      rfl

/-- Words in a row: the first row shows the record, the others continue it. -/
def manyWords (record : Record) (address : Int) (contents : List Nat) : Output :=
  { object := (wordsFrom address contents).map fun word => .word word.1 word.2 .fixed
    listing :=
      ((wordsFrom address contents).take 1).map
          (fun word => .source (.word word.1 word.2) record)
        ++ ((wordsFrom address contents).drop 1).map
          fun word => .continuation word.1 word.2 }

theorem words_manyWords (record : Record) (address : Int) (contents : List Nat) :
    (manyWords record address contents).words = StoredWord.run address contents :=
  words_wordsFrom address contents

theorem encodeString_eq_ok {record : Record} {output : Output}
    (outcome : encodeString record = .ok output) :
    ∃ operand body address,
      firstOperand record = .ok operand ∧ operand.stringBody? = some body ∧
      record.location = some address ∧
      output = manyWords record address (stringContents body) := by
  simp only [encodeString, bind_eq_ok_iff] at outcome
  obtain ⟨operand, first, encoded⟩ := outcome
  split at encoded
  · cases encoded
  · rename_i body characters
    simp only [bind_eq_ok_iff, pure_eq_ok, Except.ok.injEq] at encoded
    obtain ⟨address, located, rfl⟩ := encoded
    exact ⟨operand, body, address, first, characters, locationOf_eq_ok located, rfl⟩

theorem stores_of_encodeRecord {program : Program} {record : Record} {output : Output}
    (wellFormed : record.WellFormed) (outcome : program.encodeRecord record = .ok output) :
    program.Stores record output.words := by
  have accepted := wellFormed.accepted
  unfold encodeRecord at outcome
  split at outcome
  · rename_i mnemonic operation
    obtain ⟨_, _, _, _, _, located, words⟩ := encodeInstruction_eq_ok outcome
    rw [words]
    exact .instruction operation located
  · rename_i operation
    obtain ⟨operand, value, address, first, valued, located, rfl⟩ := encodeFill_eq_ok outcome
    rw [operation] at accepted
    exact .fill operation located (firstOperand_of_arity accepted.2.1 first) valued
  · rename_i operation
    obtain ⟨operand, body, address, first, characters, located, rfl⟩ :=
      encodeString_eq_ok outcome
    rw [operation] at accepted
    rw [words_manyWords]
    exact .string operation located (firstOperand_of_arity accepted.2.1 first) characters
  · rename_i operation
    simp only [bind_eq_ok_iff, pure_eq_ok, Except.ok.injEq] at outcome
    obtain ⟨address, _, rfl⟩ := outcome
    exact .nothing operation (by decide) (by decide)
  · rename_i order notFill notString _ operation
    cases outcome
    exact .nothing operation notFill notString
  · rename_i name operation
    rw [operation] at accepted
    exact accepted.elim

/-- A record stores or reserves as many words as were counted for it. -/
theorem Stores.addresses {program : Program} {record : Record} {part : List StoredWord}
    {address : Int} (stores : program.Stores record part) (wellFormed : record.WellFormed)
    (spot : record.location = if record.operation.storage then some address else none) :
    part.map StoredWord.address ++ record.blockAddresses =
      addressesFrom address record.size.toNat := by
  have sized := wellFormed.sized
  cases stores with
  | instruction operation located =>
      simp only [Record.Sized, operation] at sized
      simp only [operation, Operation.storage, if_true, located, Option.some.injEq] at spot
      simp [Record.blockAddresses, operation, sized, spot, addressesFrom]
  | fill operation located operands valued =>
      simp only [Record.Sized, operation] at sized
      simp only [operation, Operation.storage, Directive.storage, if_true, located,
        Option.some.injEq] at spot
      simp [Record.blockAddresses, operation, sized, spot, addressesFrom]
  | @string operand body _ operation located operands characters =>
      simp only [Record.Sized, operation] at sized
      simp only [operation, Operation.storage, Directive.storage, if_true, located,
        Option.some.injEq] at spot
      obtain ⟨other, otherBody, same, otherCharacters, size⟩ := sized
      rw [operands] at same
      obtain ⟨rfl, _⟩ := List.cons.inj same
      obtain rfl := Option.some.inj (characters.symm.trans otherCharacters)
      have count : record.size.toNat = (stringContents body).length := by
        simp only [stringContents, List.length_append, List.length_map,
          List.length_singleton]
        omega
      rw [StoredWord.map_address_run, count, spot]
      simp [Record.blockAddresses, operation]
  | @nothing order operation notFill notString =>
      by_cases block : order = .blkw
      · rw [block] at operation
        simp only [operation, Operation.storage, Directive.storage, if_true] at spot
        simp [Record.blockAddresses, operation, spot]
      · have silent : order.storage = false := by
          cases order <;> simp_all [Directive.storage]
        simp [Record.blockAddresses, operation, block, sized.silent operation silent]

end Program

/-- The words and the blocks of records that are laid out share the addresses
between their ends, and the words come in the order of their addresses. -/
theorem LaidOut.stored {program : Program} {address after : Int} {records : List Record}
    {parts : List (List StoredWord)} (laid : LaidOut address records after)
    (wellFormed : ∀ record ∈ records, record.WellFormed)
    (stores : List.Forall₂ program.Stores records parts) :
    (parts.flatten.map StoredWord.address).Sublist
        (addressesFrom address (after - address).toNat) ∧
      (parts.flatten.map StoredWord.address ++ records.flatMap Record.blockAddresses).Perm
        (addressesFrom address (after - address).toNat) := by
  induction laid generalizing parts with
  | nil =>
      cases stores
      simp
  | @cons address after record records spot laid induction =>
      obtain ⟨part, others, head, tail, rfl⟩ := List.forall₂_cons_left_iff.mp stores
      have recordFormed := wellFormed record (by simp)
      have restFormed : ∀ other ∈ records, other.WellFormed := fun other member =>
        wellFormed other (by simp [member])
      obtain ⟨sublist, permutation⟩ := induction restFormed tail
      have ordered := laid.le restFormed
      have own := head.addresses recordFormed spot
      have nonnegative := recordFormed.size_nonneg
      have cut : addressesFrom address (after - address).toNat =
          addressesFrom address record.size.toNat ++
            addressesFrom (address + record.size)
              (after - (address + record.size)).toNat := by
        have total : (after - address).toNat =
            record.size.toNat + (after - (address + record.size)).toNat := by
          omega
        rw [total, addressesFrom_add, Int.toNat_of_nonneg nonnegative]
      constructor
      · rw [cut, ← own, List.flatten_cons, List.map_append]
        exact (List.sublist_append_left _ _).append sublist
      · rw [cut, ← own, List.flatten_cons, List.map_append, List.flatMap_cons]
        rw [List.append_assoc, List.append_assoc]
        apply List.Perm.append_left
        have swapped := List.perm_append_comm_assoc (others.flatten.map StoredWord.address)
          record.blockAddresses (records.flatMap Record.blockAddresses)
        exact swapped.trans (permutation.append_left record.blockAddresses)

theorem nodup_eraseDups (uses : List Nat) : uses.eraseDups.Nodup := by
  induction uses using List.reverseRecOn with
  | nil => exact .nil
  | append_singleton uses word induction =>
      rw [eraseDups_concat]
      split
      · exact induction
      · rename_i unused
        refine List.nodup_append.mpr ⟨induction, by simp, ?_⟩
        intro first member second single
        rw [List.mem_singleton.mp single]
        intro same
        exact unused (same ▸ List.mem_eraseDups.mp member)

/-- A list without repetitions of which every item is among the first few has
no more than those. -/
theorem take_eq_self_of_subset {words : List Nat} {count : Nat} (distinct : words.Nodup)
    (subset : ∀ word ∈ words, word ∈ words.take count) : words.take count = words := by
  have shorter : words.length ≤ (words.take count).length :=
    (List.subperm_of_subset distinct subset).length_le
  exact (List.take_prefix count words).eq_of_length_le shorter

namespace Program

theorem resolve_of_packOperands {program : Program} {record : Record} {slots : List Slot}
    {operands : List Operand} {word packed : Nat}
    (outcome : program.packOperands record slots operands word = .ok packed) :
    ∀ operand ∈ operands, ∃ resolved,
      program.resolve record.line operand = .ok resolved := by
  induction operands generalizing slots word with
  | nil => simp
  | cons operand operands induction =>
      cases slots with
      | nil => cases outcome
      | cons slot slots =>
          simp only [packOperands, bind_eq_ok_iff] at outcome
          obtain ⟨resolved, resolution, _, _, value, _, rest⟩ := outcome
          intro candidate member
          rcases List.mem_cons.mp member with first | later
          · exact ⟨resolved, first ▸ resolution⟩
          · exact induction rest candidate later

/-- A record that was encoded finds its literals in the pool. -/
theorem pooled_of_encodeRecord {program : Program} {record : Record} {output : Output}
    (wellFormed : record.WellFormed) (outcome : program.encodeRecord record = .ok output) :
    ∀ word ∈ record.literalWords, word ∈ program.literals.map Literal.word := by
  intro word member
  have accepted := wellFormed.accepted
  cases operation : record.operation with
  | directive order =>
      rw [operation] at accepted
      rw [Record.literalWords, literalWords_directive accepted] at member
      cases member
  | unknown name =>
      rw [operation] at accepted
      exact accepted.elim
  | instruction mnemonic =>
      simp only [encodeRecord, operation] at outcome
      obtain ⟨_, _, _, packing, _⟩ := encodeInstruction_eq_ok outcome
      obtain ⟨operand, operandMember, use⟩ := List.mem_filterMap.mp member
      obtain ⟨resolved, resolution⟩ := resolve_of_packOperands packing operand operandMember
      unfold Operand.literalWord? at use
      split at use
      · rename_i base value form
        cases use
        simp only [resolve, form] at resolution
        split at resolution
        · rename_i literal found
          apply (program.hasLiteral_iff value).mp
          simp [hasLiteral, found]
        · cases resolution
      · cases use

theorem pool_complete {limits : Limits} {program : Program} {outputs : List Output}
    (assembled : program.Assembled limits)
    (encoded : List.Forall₂ (fun record output => program.encodeRecord record = .ok output)
      program.records outputs) :
    program.literals.map Literal.word = program.literalUses.eraseDups := by
  have pooled : ∀ word ∈ program.literalUses, word ∈ program.literals.map Literal.word := by
    intro word member
    obtain ⟨record, recordMember, use⟩ := List.mem_flatMap.mp member
    obtain ⟨output, _, outcome⟩ := exists_right_of_forall₂ encoded recordMember
    exact pooled_of_encodeRecord (assembled.wellFormed record recordMember) outcome word use
  rw [assembled.words] at pooled ⊢
  apply take_eq_self_of_subset (nodup_eraseDups _)
  intro word member
  exact pooled word (List.mem_eraseDups.mp member)

/-- How the words of an output lie in memory. -/
structure MemoryLayout (program : Program) (output : Output) : Prop where
  /-- The words come in the order of their addresses. -/
  increasing : (output.words.map StoredWord.address).Pairwise (· < ·)
  /-- Words and blocks take up each address of the segment exactly once. -/
  partitioned : (output.words.map StoredWord.address ++ program.blockAddresses).Perm
    (addressesFrom program.firstAddress program.length.toNat)
  nonnegative : 0 ≤ program.firstAddress ∧ 0 ≤ program.length
  below : ∀ address ∈ output.words.map StoredWord.address ++ program.blockAddresses,
    address ≤ 0xFFFE
  /-- Every record owns its words, and the pool follows the last record. -/
  owned : ∃ parts,
    List.Forall₂ program.Stores program.records parts ∧
    output.words = parts.flatten ++
      StoredWord.run (program.firstAddress + (program.records.map Record.size).sum)
        program.literalUses.eraseDups

theorem memoryLayout_of_encode {limits : Limits} {program : Program} {output : Output}
    (assembled : program.Assembled limits) (outcome : program.encode = .ok output) :
    program.MemoryLayout output := by
  obtain ⟨outputs, encoded, words⟩ := encode_eq_ok assembled outcome
  have complete := pool_complete assembled encoded
  have stores : List.Forall₂ program.Stores program.records (outputs.map Output.words) := by
    rw [List.forall₂_map_right_iff]
    refine ((List.forall₂_and_left _ _).mpr ⟨assembled.wellFormed, encoded⟩).imp ?_
    rintro record part ⟨wellFormed, encoding⟩
    exact stores_of_encodeRecord wellFormed encoding
  have ordered := assembled.laidOut.le assembled.wellFormed
  obtain ⟨sublist, permutation⟩ := assembled.laidOut.stored assembled.wellFormed stores
  rw [← List.flatMap_def] at sublist permutation
  have poolAddresses := StoredWord.map_address_run program.poolStart
    (program.literals.map Literal.word)
  rw [List.length_map] at poolAddresses
  have addresses : output.words.map StoredWord.address =
      (outputs.flatMap Output.words).map StoredWord.address ++
        addressesFrom program.poolStart program.literals.length := by
    rw [words, List.map_append, poolAddresses]
  have length := assembled.length
  have whole : addressesFrom program.firstAddress program.length.toNat =
      addressesFrom program.firstAddress (program.poolStart - program.firstAddress).toNat ++
        addressesFrom program.poolStart program.literals.length := by
    have total : program.length.toNat =
        (program.poolStart - program.firstAddress).toNat + program.literals.length := by
      omega
    rw [total, addressesFrom_add, Int.toNat_of_nonneg (by omega)]
    congr 2
    omega
  have partitioned : (output.words.map StoredWord.address ++ program.blockAddresses).Perm
      (addressesFrom program.firstAddress program.length.toNat) := by
    rw [addresses, whole, List.append_assoc]
    have swapped : (addressesFrom program.poolStart program.literals.length ++
          program.blockAddresses).Perm
        (program.blockAddresses ++
          addressesFrom program.poolStart program.literals.length) :=
      List.perm_append_comm
    refine (swapped.append_left _).trans ?_
    rw [← List.append_assoc]
    exact permutation.append_right _
  constructor
  · have within : (output.words.map StoredWord.address).Sublist
        (addressesFrom program.firstAddress program.length.toNat) := by
      rw [addresses, whole]
      exact sublist.append (List.Sublist.refl _)
    exact List.Pairwise.sublist within (addressesFrom_pairwise _ _)
  · exact partitioned
  · exact ⟨assembled.nonnegative, by omega⟩
  · intro address member
    have inside := mem_addressesFrom.mp (partitioned.mem_iff.mp member)
    have bounded := assembled.bounded
    simp only [maxAddress] at bounded
    omega
  · refine ⟨outputs.map Output.words, stores, ?_⟩
    rw [words, complete, List.flatMap_def]
    rfl

end Program

/-- Whatever assembles fills its segment word by word. -/
theorem assemble_memoryLayout {limits : Limits} {source : Source} {program : Program}
    {output : Output} (outcome : (assemble limits source).outcome = .ok (program, output)) :
    program.MemoryLayout output := by
  simp only [assemble, Traced.outcome_bind, Traced.outcome_lift, Traced.outcome_note, ok_bind,
    Traced.outcome_pure, bind_eq_ok_iff, Except.ok.injEq, Prod.mk.injEq] at outcome
  obtain ⟨_, read, _, encoded, rfl, rfl⟩ := outcome
  exact Program.memoryLayout_of_encode (Program.assembled_of_read read) encoded

/-- A segment with a block, a string and a literal that is used twice. -/
def pooledSegment : Source :=
  .ofLines
    ["DEMO     .ORIG   x3000",
      "START    LD      R1,=#-2",
      "         LD      R2,=#-2",
      "         ADD     R1,R1,#3",
      "TWO      .EQU    x2",
      "BUF      .BLKW   TWO",
      "PTR      .FILL   BUF",
      "MSG      .STRZ   \"a; b\"",
      "         .END    START"]

theorem pooledSegment_memoryLayout :
    ∃ program output,
      (assemble {} pooledSegment).outcome = .ok (program, output) ∧
      program.MemoryLayout output := by
  have succeeds : (assemble {} pooledSegment).outcome.isOk = true := by decide +kernel
  obtain ⟨⟨program, output⟩, outcome⟩ := exists_eq_ok succeeds
  exact ⟨program, output, outcome, assemble_memoryLayout outcome⟩

end Lc3Assembler
