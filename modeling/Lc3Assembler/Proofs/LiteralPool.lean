import Lc3Assembler.Proofs.Decoding
import Lc3Assembler.Proofs.Runs

/-!
# Literals and the words they load

Only the second operand of a load is a literal, so the pool holds the words of
the loads: each of them once, in the order of their first use.  The offset in
the word of a load, completed by the page of the next instruction, is the
address of the one word of the pool that holds the value.
-/

namespace Lc3Assembler

/-- Only a load has a literal, as its second operand. -/
def Operation.PlacesLiterals (operation : Operation) (operands : List Operand) : Prop :=
  ∀ index operand, operands[index]? = some operand → operand.kind = .literal →
    operation = .instruction .ld ∧ index = 1

/-- The value of the literal that a record loads. -/
def Record.loadedLiteral? (record : Record) : Option Int :=
  match record.operation, record.operands with
  | .instruction .ld, [_, operand] =>
      match operand.form with
      | .literal _ value => some value
      | _ => none
  | _, _ => none

/-- The values of the loaded literals, in the order of their use. -/
def Program.loadedLiterals (program : Program) : List Int :=
  program.records.filterMap Record.loadedLiteral?

/-- The words behind the last record: those of the loaded literals, each once,
in the order of their first use. -/
def Program.literalPool (program : Program) : List StoredWord :=
  StoredWord.run program.poolStart (program.loadedLiterals.map wordOf).eraseDups

/-- The address that an instruction word at some location refers to: an offset
on the page of the next instruction. -/
def effectiveAddress (location : Int) (word : Nat) : Int :=
  ((location + 1).toNat >>> 9 <<< 9 ||| word % 512 : Nat)

theorem Form.kind_eq_literal_iff {form : Form} :
    form.kind = .literal ↔ ∃ base value, form = .literal base value := by
  cases form <;> simp [kind]

theorem Operand.literalWord?_of_kind {operand : Operand} (other : operand.kind ≠ .literal) :
    operand.literalWord? = none := by
  unfold literalWord?
  split
  · rename_i base value form
    exact absurd (Form.kind_eq_literal_iff.mpr ⟨base, value, form⟩) other
  · rfl

namespace Draft

theorem checkOperand_literal {line : SourceLine} {index : Nat} {operand : Operand}
    {allowed : Bool} {expected : List String}
    (checked : checkOperand line index operand allowed expected = .ok ())
    (literal : operand.kind = .literal) : line.operation = .instruction .ld ∧ index = 1 := by
  unfold checkOperand at checked
  split at checked
  · cases checked
  · split at checked
    · cases checked
    · rename_i placed
      simpa [literal] using placed

theorem checkSlots_literal {line : SourceLine} {index : Nat} {slots : List Slot}
    {operands : List Operand} (same : operands.length = slots.length)
    (checked : checkSlots line index slots operands = .ok ()) {offset : Nat} {operand : Operand}
    (found : operands[offset]? = some operand) (literal : operand.kind = .literal) :
    line.operation = .instruction .ld ∧ index + offset = 1 := by
  induction slots generalizing index operands offset with
  | nil =>
      have empty : operands = [] := List.eq_nil_of_length_eq_zero same
      rw [empty] at found
      cases found
  | cons slot slots induction =>
      cases operands with
      | nil => cases found
      | cons first others =>
          obtain ⟨_, head, tail⟩ := bind_eq_ok_iff.mp checked
          cases offset with
          | zero =>
              cases found
              exact checkOperand_literal head literal
          | succ offset =>
              have counted : others.length = slots.length := by simpa using same
              obtain ⟨load, second⟩ := induction counted tail found
              exact ⟨load, by omega⟩

theorem placesLiterals_of_accept {limits : Limits} {draft : Draft} {line : SourceLine}
    {progress : Progress} (outcome : (draft.accept limits line).outcome = .ok progress) :
    line.operation.PlacesLiterals line.operands := by
  unfold accept at outcome
  split at outcome
  · cases outcome
  · simp only [Traced.outcome_bind, Traced.outcome_lift, bind_eq_ok_iff] at outcome
    obtain ⟨_, _, _, counted, _, checked, _⟩ := outcome
    obtain ⟨fewest, most⟩ := checkCount_eq_ok counted
    intro index operand found literal
    obtain ⟨load, second⟩ :=
      checkSlots_literal (Nat.le_antisymm most fewest) checked found literal
    exact ⟨load, by omega⟩
  · rename_i order operation
    simp only [Traced.outcome_bind, Traced.outcome_lift, bind_eq_ok_iff] at outcome
    obtain ⟨_, _, _, _, _, checked, _⟩ := outcome
    intro index operand found literal
    have allowed := checkKinds_eq_ok checked operand (List.mem_of_getElem? found)
    rw [literal] at allowed
    cases order <;> simp [Directive.allows, Directive.kinds] at allowed

end Draft

theorem Record.literalWords_eq {record : Record}
    (accepted : record.operation.Accepts record.operands)
    (placed : record.operation.PlacesLiterals record.operands) :
    record.literalWords = (record.loadedLiteral?.map wordOf).toList := by
  by_cases load : record.operation = .instruction .ld
  · rw [load] at accepted
    obtain ⟨register, others, _, rest, operands⟩ := List.forall₂_cons_left_iff.mp accepted
    obtain ⟨operand, none, _, nothing, rfl⟩ := List.forall₂_cons_left_iff.mp rest
    cases nothing
    have first : register.literalWord? = Option.none := by
      apply Operand.literalWord?_of_kind
      intro literal
      have second := (placed 0 register (by simp [operands]) literal).2
      cases second
    simp only [literalWords, loadedLiteral?, load, operands, List.filterMap_cons, first,
      List.filterMap_nil]
    rw [Operand.literalWord?]
    cases operand.form <;> rfl
  · have absent : record.literalWords = [] := by
      rw [literalWords, List.filterMap_eq_nil_iff]
      intro operand member
      obtain ⟨index, found⟩ := List.getElem?_of_mem member
      apply Operand.literalWord?_of_kind
      intro literal
      exact load (placed index operand found literal).1
    rw [absent, loadedLiteral?]
    split
    · rename_i operation _
      exact absurd operation load
    · rfl

namespace Program

theorem placesLiterals_of_read {limits : Limits} {source : Source} {program : Program}
    (outcome : (Program.read limits source).outcome = .ok program) :
    ∀ record ∈ program.records, record.operation.PlacesLiterals record.operands := by
  have kept : Draft.Inductive limits fun _ _ draft =>
      ∀ record ∈ draft.program.records, record.operation.PlacesLiterals record.operands := by
    constructor
    · simp
    · intro _ _ _ placed
      exact placed
    · intro _ _ draft next line _ _ reachable placed _ accepted taken
      obtain ⟨location, size, records⟩ := taken.records reachable.invariant
      intro record member
      rw [records, List.mem_append, List.mem_singleton] at member
      rcases member with old | rfl
      · exact placed record old
      · exact Draft.placesLiterals_of_accept accepted
  obtain ⟨_, _, last, exec, placed, closed, _⟩ := Program.read_invariant kept outcome
  rw [(Draft.close_eq_ok closed).2.2.2]
  exact placed

theorem literalUses_eq {program : Program}
    (wellFormed : ∀ record ∈ program.records, record.WellFormed)
    (placed : ∀ record ∈ program.records, record.operation.PlacesLiterals record.operands) :
    program.literalUses = program.loadedLiterals.map wordOf := by
  rw [literalUses, loadedLiterals, List.map_filterMap, List.filterMap_eq_flatMap_toList]
  apply List.flatMap_congr
  intro record member
  exact Record.literalWords_eq (wellFormed record member).accepted (placed record member)

end Program

namespace StoredWord

theorem map_contents_run (start : Int) (contents : List Nat) :
    (run start contents).map StoredWord.contents = contents := by
  induction contents generalizing start with
  | nil => rfl
  | cons word contents induction => rw [run_cons, List.map_cons, induction]

/-- Words in the order of their addresses have one word at each address. -/
theorem filter_address {words : List StoredWord} {word : StoredWord}
    (increasing : (words.map address).Pairwise (· < ·)) (member : word ∈ words) :
    words.filter (fun other => other.address = word.address) = [word] := by
  induction words with
  | nil => cases member
  | cons first others induction =>
      rw [List.map_cons, List.pairwise_cons] at increasing
      rw [List.filter_cons]
      rcases List.mem_cons.mp member with rfl | later
      · have absent : others.filter (fun other => other.address = word.address) = [] := by
          rw [List.filter_eq_nil_iff]
          intro other otherMember
          have above := increasing.1 other.address (List.mem_map_of_mem otherMember)
          simpa using Int.ne_of_gt above
        simp [absent]
      · have below := increasing.1 word.address (List.mem_map_of_mem later)
        rw [if_neg (by simpa using Int.ne_of_lt below)]
        exact induction increasing.2 later

end StoredWord

namespace Program

theorem mem_words_encodePool {literals : List Literal} {literal : Literal}
    (member : literal ∈ literals) :
    ⟨literal.address, literal.word, .fixed⟩ ∈ (encodePool literals).words := by
  simp only [Output.words, encodePool, List.mem_filterMap]
  exact ⟨_, List.mem_map_of_mem member, rfl⟩

/-- The word of an encoded load refers to the pool entry of its literal. -/
theorem Encodes.effectiveAddress {program : Program} {record : Record} {location value : Int}
    {word : Nat} (encodes : program.Encodes record .ld word)
    (operation : record.operation = .instruction .ld)
    (located : record.location = some location) (nonnegative : 0 ≤ location)
    (loads : record.loadedLiteral? = some value) :
    ∃ literal, program.literal? value = some literal ∧
      Lc3Assembler.effectiveAddress location word = literal.address := by
  simp only [Record.loadedLiteral?, operation] at loads
  split at loads
  · rename_i register operand _ operands
    split at loads
    · rename_i base _ form
      cases loads
      have last : record.lastField? .ld = some (.address, operand) := by
        rw [Record.lastField?, operands]
        rfl
      obtain ⟨resolved, valued, _⟩ := encodes.fields _ _ (List.mem_of_getLast? last)
      have denotes : program.Denotes operand resolved := by
        rcases valued with known | ⟨external, _⟩
        · exact known
        · rw [external.1] at form
          cases form
      have page := encodes.page_of_last located nonnegative last rfl denotes
      cases denotes with
      | register other | immediate other | symbol other _ =>
          rw [other] at form
          cases form
      | literal other found =>
          rw [other] at form
          cases form
          exact ⟨_, found, page⟩
    · cases loads
  · cases loads

/-- Where the literals of a program are stored, and what the loads find. -/
structure LoadsLiterals (program : Program) (output : Output) : Prop where
  /-- The pool follows the words that the records own. -/
  pool : ∃ parts, List.Forall₂ program.Stores program.records parts ∧
    output.words = parts.flatten ++ program.literalPool
  distinct : (program.literalPool.map StoredWord.contents).Nodup
  exact : ∀ word, word ∈ program.literalPool.map StoredWord.contents ↔
    ∃ value ∈ program.loadedLiterals, wordOf value = word
  /-- One word lies where a load refers to, and it holds the literal. -/
  loads : ∀ record ∈ program.records, ∀ value, record.loadedLiteral? = some value →
    ∃ location stored pooled,
      record.location = some location ∧
      output.words.filter (fun word => word.address = location) = [stored] ∧
      output.words.filter
        (fun word => word.address = effectiveAddress location stored.contents) = [pooled] ∧
      (pooled.contents : Int) = value % 0x10000 ∧ pooled ∈ program.literalPool

theorem loadsLiterals_of_encode {limits : Limits} {source : Source} {program : Program}
    {output : Output} (read : (Program.read limits source).outcome = .ok program)
    (encoded : program.encode = .ok output) : program.LoadsLiterals output := by
  have assembled := assembled_of_read read
  have layout := memoryLayout_of_encode assembled encoded
  have uses := literalUses_eq assembled.wellFormed (placesLiterals_of_read read)
  obtain ⟨outputs, each, words⟩ := encode_eq_ok assembled encoded
  have complete := pool_complete assembled each
  have pool : (encodePool program.literals).words = program.literalPool := by
    rw [words_encodePool _ _ assembled.addresses, complete, uses, literalPool]
  constructor
  · obtain ⟨parts, stores, owned⟩ := layout.owned
    refine ⟨parts, stores, ?_⟩
    rw [owned, uses]
    rfl
  · rw [literalPool, StoredWord.map_contents_run]
    exact nodup_eraseDups _
  · intro word
    rw [literalPool, StoredWord.map_contents_run, List.mem_eraseDups, List.mem_map]
  · intro record member value loads
    have operation : record.operation = .instruction .ld := by
      unfold Record.loadedLiteral? at loads
      split at loads
      · assumption
      · cases loads
    obtain ⟨part, partMember, outcome⟩ := exists_right_of_forall₂ each member
    simp only [encodeRecord, operation] at outcome
    obtain ⟨word, location, relocation, encodes, located, single⟩ :=
      encodes_of_encodeInstruction (assembled.wellFormed record member) operation outcome
    have stored : ⟨location, word, relocation⟩ ∈ output.words := by
      rw [words]
      exact List.mem_append_left _ (List.mem_flatMap.mpr ⟨part, partMember, by simp [single]⟩)
    have nonnegative : 0 ≤ location := by
      have inside := layout.partitioned.mem_iff.mp
        (List.mem_append_left _ (List.mem_map_of_mem stored))
      exact Int.le_trans assembled.nonnegative (mem_addressesFrom.mp inside).1
    obtain ⟨literal, found, address⟩ :=
      encodes.effectiveAddress operation located nonnegative loads
    have pooled := mem_words_encodePool (List.mem_of_find?_eq_some found)
    have holds : literal.word = wordOf value := by
      simpa using List.find?_some found
    have both : ⟨literal.address, literal.word, .fixed⟩ ∈ output.words := by
      rw [words, ← words_encodePool _ _ assembled.addresses]
      exact List.mem_append_right _ pooled
    refine ⟨location, _, _, located, StoredWord.filter_address layout.increasing stored, ?_, ?_,
      pool ▸ pooled⟩
    · rw [address]
      exact StoredWord.filter_address layout.increasing both
    · rw [holds]
      simp only [wordOf, wordCount]
      omega

end Program

/-- Whatever assembles loads the literals that were written. -/
theorem assemble_loadsLiterals {limits : Limits} {source : Source} {program : Program}
    {output : Output} (outcome : (assemble limits source).outcome = .ok (program, output)) :
    program.LoadsLiterals output := by
  obtain ⟨read, encoded⟩ := assemble_eq_ok outcome
  exact Program.loadsLiterals_of_encode read encoded

/-- A segment on the border of a page whose first two literals share a word. -/
def sharedLiterals : Source :=
  .ofLines
    ["SHARE    .ORIG   x31FF",
      "         LD      R1,=#-1",
      "         LD      R2,=xFFFF",
      "         LD      R3,=#5",
      "         .END"]

theorem sharedLiterals_loadsLiterals :
    ∃ program output,
      (assemble {} sharedLiterals).outcome = .ok (program, output) ∧
      program.loadedLiterals = [-1, 0xFFFF, 5] ∧ program.LoadsLiterals output := by
  have succeeds : (assemble {} sharedLiterals).outcome.isOk = true := by decide +kernel
  obtain ⟨⟨program, output⟩, outcome⟩ := exists_eq_ok succeeds
  have loaded : (assemble {} sharedLiterals).outcome.toOption.map (·.1.loadedLiterals) =
      some [-1, 0xFFFF, 5] := by decide +kernel
  rw [outcome] at loaded
  exact ⟨program, output, outcome, Option.some.inj loaded, assemble_loadsLiterals outcome⟩

end Lc3Assembler
