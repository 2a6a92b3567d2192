import Lc3Assembler.Proofs.Decoding

/-!
# What encoding a record gives

The words of a record go into the object file, and the same words into its rows
of the listing: the first of them beside the record, the others on rows of their
own.  `Program.Emits` states this once for all four ways of encoding a record,
with the bounds that keep a word in its columns.
-/

namespace Lc3Assembler

/-- The object record of a word. -/
def StoredWord.record (word : StoredWord) : ObjectRecord :=
  .word word.address word.contents word.relocation

/-- The row of a word that continues a record. -/
def StoredWord.continuation (word : StoredWord) : ListingRow :=
  .continuation word.address word.contents

/-- The word of a literal. -/
def Literal.stored (literal : Literal) : StoredWord :=
  { address := literal.address, contents := literal.word, relocation := .fixed }

/-- The row of a literal. -/
def Literal.row (literal : Literal) : ListingRow :=
  .literal literal.address literal.word

namespace Program

/-- A relocation that refers to nothing but a declared name. -/
def Declares (program : Program) : Relocation → Prop
  | .external width name => 0 ≤ width ∧ program.isExternal name = true
  | _ => True

/-- The words and the rows of a record. -/
inductive Emits (program : Program) (record : Record) :
    List StoredWord → List ListingRow → Prop where
  | stored {first : StoredWord} {others : List StoredWord}
      (single : record.operation ≠ .directive .strz → others = [])
      (several : record.operation = .directive .strz → record.size = others.length + 1)
      (bounded : ∀ word ∈ first :: others, word.contents < 0x10000)
      (declared : ∀ word ∈ first :: others, program.Declares word.relocation) :
      Emits program record (first :: others)
        (.source (.word first.address first.contents) record ::
          others.map StoredWord.continuation)
  | reserved {address : Int} (operation : record.operation = .directive .blkw)
      (located : record.location = some address) :
      Emits program record [] [.source (.reserved address) record]
  | silent (operation : record.operation ≠ .directive .strz) :
      Emits program record [] [.source .none record]

theorem slot_width_nonneg (mnemonic : Mnemonic) : ∀ slot ∈ mnemonic.slots, 0 ≤ slot.width := by
  cases mnemonic <;> decide

theorem declares_relocation {program : Program} {operand : Operand} {slot : Slot}
    (wide : 0 ≤ slot.width) : program.Declares (program.relocation operand slot) := by
  unfold relocation
  split
  · trivial
  · split
    · trivial
    · split
      · split
        · split <;> trivial
        · trivial
      · split
        · rename_i external
          exact ⟨wide, external⟩
        · trivial
    · trivial

theorem declares_lastRelocation {program : Program} {slots : List Slot}
    (wide : ∀ slot ∈ slots, 0 ≤ slot.width) (operands : List Operand) :
    program.Declares (program.lastRelocation slots operands) := by
  induction slots generalizing operands with
  | nil => cases operands <;> trivial
  | cons slot slots induction =>
      have others := induction fun other member => wide other (by simp [member])
      match operands with
      | [] => trivial
      | [operand] => exact declares_relocation (wide slot (by simp))
      | _ :: operand :: operands => exact others (operand :: operands)

theorem emits_oneWord {program : Program} {record : Record} {address : Int} {word : Nat}
    {relocation : Relocation} (operation : record.operation ≠ .directive .strz)
    (bounded : word < 0x10000) (declared : program.Declares relocation) :
    program.Emits record [⟨address, word, relocation⟩]
      (oneWord record address word relocation).listing :=
  .stored (fun _ => rfl) (fun string => absurd string operation)
    (by simpa using bounded) (by simpa using declared)

theorem listing_manyWords (record : Record) (address : Int) (word : Nat)
    (contents : List Nat) :
    (manyWords record address (word :: contents)).listing =
      .source (.word address word) record ::
        (StoredWord.run (address + 1) contents).map StoredWord.continuation := by
  have continued (start : Int) (rest : List Nat) :
      (wordsFrom start rest).map (fun stored => ListingRow.continuation stored.1 stored.2) =
        (StoredWord.run start rest).map StoredWord.continuation := by
    induction rest generalizing start with
    | nil => rfl
    | cons first rest induction =>
        rw [wordsFrom, StoredWord.run_cons, List.map_cons, List.map_cons, induction]
        rfl
  rw [← continued]
  rfl

theorem object_manyWords (record : Record) (address : Int) (contents : List Nat) :
    (manyWords record address contents).object =
      (StoredWord.run address contents).map StoredWord.record := by
  change (wordsFrom address contents).map _ = _
  induction contents generalizing address with
  | nil => rfl
  | cons word contents induction =>
      rw [wordsFrom, StoredWord.run_cons, List.map_cons, List.map_cons, induction]
      rfl

theorem mem_run {start : Int} {contents : List Nat} {word : StoredWord}
    (member : word ∈ StoredWord.run start contents) :
    word.contents ∈ contents ∧ word.relocation = .fixed := by
  induction contents generalizing start with
  | nil => cases member
  | cons first contents induction =>
      rw [StoredWord.run_cons] at member
      rcases List.mem_cons.mp member with here | later
      · rw [here]
        exact ⟨List.mem_cons_self, rfl⟩
      · obtain ⟨inside, fixed⟩ := induction later
        exact ⟨List.mem_cons_of_mem _ inside, fixed⟩

theorem stringContents_lt {body : List Char} :
    ∀ word ∈ stringContents body, word < 0x10000 := by
  intro word member
  rcases List.mem_append.mp member with character | zero
  · obtain ⟨c, _, rfl⟩ := List.mem_map.mp character
    exact Nat.mod_lt _ (by decide)
  · rw [List.mem_singleton.mp zero]
    decide

theorem stringContents_eq_cons (body : List Char) :
    ∃ word contents, stringContents body = word :: contents ∧ contents.length = body.length := by
  cases body with
  | nil => exact ⟨0, [], rfl, rfl⟩
  | cons c body => exact ⟨_, _, rfl, by simp⟩

/-- A string emits as many words as were counted for it. -/
theorem emits_manyWords {program : Program} {record : Record} {address : Int}
    {body : List Char} (operation : record.operation = .directive .strz)
    (size : record.size = body.length + 1) :
    program.Emits record (StoredWord.run address (stringContents body))
      (manyWords record address (stringContents body)).listing := by
  have valid : ∀ word ∈ StoredWord.run address (stringContents body),
      word.contents < 0x10000 ∧ program.Declares word.relocation := by
    intro word member
    obtain ⟨inside, fixed⟩ := mem_run member
    rw [fixed]
    exact ⟨stringContents_lt _ inside, trivial⟩
  obtain ⟨word, contents, cut, count⟩ := stringContents_eq_cons body
  have total : (StoredWord.run (address + 1) contents).length = contents.length := by
    have addresses := congrArg List.length (StoredWord.map_address_run (address + 1) contents)
    simpa [addressesFrom] using addresses
  rw [cut, StoredWord.run_cons] at valid
  rw [cut, StoredWord.run_cons, listing_manyWords]
  exact .stored (fun other => absurd operation other)
    (fun _ => by rw [size, total, count])
    (fun stored member => (valid stored member).1)
    (fun stored member => (valid stored member).2)

/-- The size of a string is that of its operand. -/
theorem size_of_string {record : Record} {operand : Operand} {body : List Char}
    (wellFormed : record.WellFormed) (operation : record.operation = .directive .strz)
    (operands : record.operands = [operand]) (characters : operand.stringBody? = some body) :
    record.size = body.length + 1 := by
  have sized := wellFormed.sized
  simp only [Record.Sized, operation] at sized
  obtain ⟨other, otherBody, same, otherCharacters, size⟩ := sized
  rw [operands] at same
  obtain ⟨rfl, _⟩ := List.cons.inj same
  obtain rfl := Option.some.inj (characters.symm.trans otherCharacters)
  exact size

/-- The output of a record is its words and its rows. -/
theorem emits_of_encodeRecord {program : Program} {record : Record} {output : Output}
    (wellFormed : record.WellFormed) (outcome : program.encodeRecord record = .ok output) :
    output.object = output.words.map StoredWord.record ∧
      program.Emits record output.words output.listing := by
  have accepted := wellFormed.accepted
  unfold encodeRecord at outcome
  split at outcome
  · rename_i mnemonic operation
    obtain ⟨word, address, relocation, encodes, _, words⟩ :=
      encodes_of_encodeInstruction wellFormed operation outcome
    have bounded := encodes.bounded
    simp only [encodeInstruction, bind_eq_ok_iff, pure_eq_ok, Except.ok.injEq] at outcome
    obtain ⟨_, _, contents, _, place, _, rfl⟩ := outcome
    cases words
    exact ⟨rfl, emits_oneWord (by simp [operation]) (by omega)
      (declares_lastRelocation (slot_width_nonneg mnemonic) record.operands)⟩
  · rename_i operation
    obtain ⟨operand, value, address, _, _, _, rfl⟩ := encodeFill_eq_ok outcome
    exact ⟨rfl, emits_oneWord (by simp [operation]) (wordOf_lt value)
      (declares_relocation (by decide))⟩
  · rename_i operation
    obtain ⟨operand, body, address, first, characters, _, rfl⟩ := encodeString_eq_ok outcome
    rw [operation] at accepted
    have operands := firstOperand_of_arity accepted.2.1 first
    have size := size_of_string wellFormed operation operands characters
    rw [words_manyWords]
    exact ⟨object_manyWords record address _, emits_manyWords operation size⟩
  · rename_i operation
    simp only [bind_eq_ok_iff, pure_eq_ok, Except.ok.injEq] at outcome
    obtain ⟨address, located, rfl⟩ := outcome
    exact ⟨rfl, .reserved operation (locationOf_eq_ok located)⟩
  · rename_i order _ notString _ operation
    cases outcome
    exact ⟨rfl, .silent (by simpa [operation] using notString)⟩
  · rename_i name operation
    rw [operation] at accepted
    exact accepted.elim

theorem encodeRecords_emits {program : Program} {records : List Record} {body : Output}
    (wellFormed : ∀ record ∈ records, record.WellFormed)
    (outcome : program.encodeRecords records = .ok body) :
    ∃ outputs,
      List.Forall₂ (fun record output => program.Emits record (Output.words output) output.listing)
        records outputs ∧
      body.object = (outputs.flatMap Output.words).map StoredWord.record ∧
      body.listing = outputs.flatMap Output.listing := by
  induction records generalizing body with
  | nil =>
      cases outcome
      exact ⟨[], .nil, rfl, rfl⟩
  | cons record records induction =>
      simp only [encodeRecords, bind_eq_ok_iff, pure_eq_ok, Except.ok.injEq] at outcome
      obtain ⟨first, head, others, tail, rfl⟩ := outcome
      obtain ⟨object, emits⟩ := emits_of_encodeRecord (wellFormed record (by simp)) head
      obtain ⟨outputs, each, objects, rows⟩ :=
        induction (fun other member => wellFormed other (by simp [member])) tail
      refine ⟨first :: outputs, .cons emits each, ?_, ?_⟩
      · simp only [Output.append, List.flatMap_cons, List.map_append]
        rw [object, objects]
      · simp only [Output.append, List.flatMap_cons, rows]

/-- An encoded program, part by part. -/
structure Emission (program : Program) (output : Output) (outputs : List Output)
    (points : List ObjectRecord) : Prop where
  entries : program.encodeEntries program.entries = .ok points
  records : List.Forall₂
    (fun record part => program.Emits record (Output.words part) part.listing)
    program.records outputs
  words : output.words =
    outputs.flatMap Output.words ++ program.literals.map Literal.stored
  object : output.object =
    .header program.segment program.firstAddress program.length ::
      points ++ program.externals.map (fun declaration => .external declaration.name) ++
      output.words.map StoredWord.record ++ [.start program.execAddress]
  listing : output.listing =
    outputs.flatMap Output.listing ++ program.literals.map Literal.row

theorem encode_emission {limits : Limits} {program : Program} {output : Output}
    (assembled : program.Assembled limits) (outcome : program.encode = .ok output) :
    ∃ outputs points, program.Emission output outputs points := by
  simp only [encode, assembled.frozen, Bool.not_true, Bool.false_eq_true, if_false,
    bind_eq_ok_iff, pure_eq_ok, Except.ok.injEq] at outcome
  obtain ⟨points, declared, body, encoded, result⟩ := outcome
  obtain ⟨outputs, each, objects, rows⟩ := encodeRecords_emits assembled.wellFormed encoded
  have bodyWords : body.words = outputs.flatMap Output.words := by
    rw [Output.words, objects, List.filterMap_map]
    exact List.filterMap_some
  have poolWords : (encodePool program.literals).words =
      program.literals.map Literal.stored := by
    rw [Output.words, encodePool, List.filterMap_map]
    exact congrFun List.filterMap_eq_map program.literals
  have words : output.words =
      outputs.flatMap Output.words ++ program.literals.map Literal.stored := by
    rw [← result, words_encoded declared ⟨rfl, rfl⟩, Output.words_append, bodyWords, poolWords]
  refine ⟨outputs, points, declared, each, words, ?_, ?_⟩
  · rw [words, ← result]
    simp only [Output.append, objects, encodePool, List.map_append, List.map_map]
    rfl
  · rw [← result]
    simp only [Output.append, rows, encodePool]
    rfl

theorem literal_lt {limits : Limits} {program : Program} (assembled : program.Assembled limits) :
    ∀ literal ∈ program.literals, literal.word < 0x10000 := by
  intro literal member
  have used : literal.word ∈ program.literals.map Literal.word := List.mem_map_of_mem member
  rw [assembled.words] at used
  obtain ⟨record, _, use⟩ :=
    List.mem_flatMap.mp (List.mem_eraseDups.mp (List.mem_of_mem_take used))
  obtain ⟨operand, _, word⟩ := List.mem_filterMap.mp use
  unfold Operand.literalWord? at word
  split at word
  · rw [← Option.some.inj word]
    exact wordOf_lt _
  · cases word

theorem Emits.valid {program : Program} {record : Record} {words : List StoredWord}
    {rows : List ListingRow} (emits : program.Emits record words rows) :
    ∀ word ∈ words, word.contents < 0x10000 ∧ program.Declares word.relocation := by
  cases emits with
  | stored _ _ bounded declared =>
      exact fun word member => ⟨bounded word member, declared word member⟩
  | reserved _ _ => simp
  | silent _ => simp

end Program

/-- A word at an address of the machine that refers to declared names only. -/
structure StoredWord.Valid (program : Program) (word : StoredWord) : Prop where
  nonnegative : 0 ≤ word.address
  below : word.address ≤ 0xFFFE
  bounded : word.contents < 0x10000
  declared : program.Declares word.relocation

theorem Program.valid_of_encode {limits : Limits} {program : Program} {output : Output}
    (assembled : program.Assembled limits) (outcome : program.encode = .ok output) :
    ∀ word ∈ output.words, word.Valid program := by
  obtain ⟨outputs, points, emission⟩ := encode_emission assembled outcome
  have layout := memoryLayout_of_encode assembled outcome
  intro word member
  have place : word.address ∈ output.words.map StoredWord.address ++ program.blockAddresses :=
    List.mem_append_left _ (List.mem_map_of_mem member)
  have low := (mem_addressesFrom.mp (layout.partitioned.mem_iff.mp place)).1
  have valid : word.contents < 0x10000 ∧ program.Declares word.relocation := by
    rw [emission.words] at member
    rcases List.mem_append.mp member with record | literal
    · obtain ⟨part, partMember, inside⟩ := List.mem_flatMap.mp record
      obtain ⟨owner, _, emits⟩ := exists_right_of_forall₂ emission.records.flip partMember
      exact emits.valid word inside
    · obtain ⟨pooled, pooledMember, rfl⟩ := List.mem_map.mp literal
      exact ⟨literal_lt assembled pooled pooledMember, trivial⟩
  exact ⟨Int.le_trans assembled.nonnegative low, layout.below _ place, valid.1, valid.2⟩

end Lc3Assembler
