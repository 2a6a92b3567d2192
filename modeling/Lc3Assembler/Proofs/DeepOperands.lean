import Lc3Assembler.Proofs.ColumnGrammar
import Lc3Assembler.Proofs.Runs

/-!
# Operands that are nested too deep

An operand with more signs of equality in front than calls may nest is neither accepted nor
malformed: the host gives up on it.  `SourceLine.HasDeepOperand` says when a line is given up,
and `Source.GetsTooDeep` when a run is, which is when it gets to such a line.
-/

namespace Lc3Assembler

/-- All is well with a line up to its operands, of which there are not too many, but calls
would nest too deep where one of them is classified. -/
structure SourceLine.HasDeepOperand (spareCalls : Nat) (text : String) : Prop where
  long : 10 ≤ text.toList.length
  labelGap : ∀ c ∈ labelGap text.toList, Text.isBlank c = true
  label : ∃ label, readLabel (labelField text.toList) = .ok label
  operands : ∃ opcode tokens,
    readOpcode (opcodeField text.toList) (opcodeGap text.toList) = .ok opcode ∧
      readTokens opcode (operandField text.toList) = .ok tokens ∧ tokens.length ≤ 3 ∧
        ∃ token ∈ tokens, spareCalls + 1 < Token.marks token

/-- The lines up to some place are taken in, there is room for a further record, and this
would be that of a line with an operand that is nested too deep. -/
def Source.GetsTooDeep (limits : Limits) (source : Source) : Prop :=
  ∃ before text rest events draft,
    source.lines = before ++ text :: rest ∧ Draft.Reads limits before events draft ∧
      (draft.program.records.length : Int) < limits.maxRecords ∧
        SourceLine.HasDeepOperand limits.spareCalls (Text.chomp text)

theorem Operand.parseAll_eq_none_iff {spareCalls : Nat} {tokens : List (List Char)} :
    parseAll spareCalls tokens = none ↔
      ∃ token ∈ tokens, spareCalls + 1 < Token.marks token := by
  induction tokens with
  | nil => simp [parseAll]
  | cons token rest induction =>
      have first : parse spareCalls (String.ofList token) = none ↔
          spareCalls + 1 < Token.marks token := by
        rw [parse_eq_none_iff, String.toList_ofList]
      rw [parseAll, List.exists_mem_cons_iff, ← first, ← induction]
      split
      · rename_i deep
        simp [deep]
      · rename_i operand read
        simp [read]

namespace SourceLine

variable {spareCalls : Nat} {number : Int} {text : String} {failure : Failure}

theorem readLabel_ne_tooDeep (field : List Char) : readLabel field ≠ .error .tooDeep := by
  unfold readLabel
  split
  · simp
  · simp only
    split <;> simp

theorem readOpcode_ne_tooDeep (field gap : List Char) :
    readOpcode field gap ≠ .error .tooDeep := by
  unfold readOpcode
  simp only
  split <;> simp

theorem stringToken_ne_tooDeep (rest : List Char) : stringToken rest ≠ .error .tooDeep := by
  unfold stringToken
  simp only
  split
  · simp
  · split
    · simp
    · split <;> simp

theorem readTokens_ne_tooDeep (opcode : String) (field : List Char) :
    readTokens opcode field ≠ .error .tooDeep := by
  unfold readTokens
  split
  · rename_i rest
    split
    · intro deep
      have inside := stringToken_ne_tooDeep rest
      cases taken : stringToken rest with
      | error fault =>
          rw [taken] at deep inside
          exact inside (congrArg Except.error (Except.error.inj deep))
      | ok token =>
          rw [taken] at deep
          cases deep
    · simp
  · simp

theorem readOperands_eq_tooDeep_iff {tokens : List (List Char)} :
    readOperands spareCalls tokens = .error .tooDeep ↔
      tokens.length ≤ 3 ∧ ∃ token ∈ tokens, spareCalls + 1 < Token.marks token := by
  rw [← Operand.parseAll_eq_none_iff]
  unfold readOperands
  split
  · rename_i many
    have more : 3 < tokens.length := many
    simp only [Except.error.injEq, reduceCtorEq, false_iff, not_and]
    omega
  · rename_i few
    have room : tokens.length ≤ 3 := Nat.le_of_not_lt few
    split
    · rename_i deep
      simp [room, deep]
    · rename_i parsed read
      split <;> simp [read]

theorem fields_eq_tooDeep_iff :
    fields spareCalls number text.toList = .error .tooDeep ↔ HasDeepOperand spareCalls text := by
  unfold fields
  cases shaped : decide (text.toList.length ≤ 9) || !Text.allBlank (labelGap text.toList) with
  | false =>
      obtain ⟨long, gap⟩ := recordShape_iff.mp shaped
      simp only [Bool.false_eq_true, if_false, bind_eq_error_iff, readLabel_ne_tooDeep,
        readOpcode_ne_tooDeep, readTokens_ne_tooDeep, readOperands_eq_tooDeep_iff, false_or,
        pure_eq_ok, reduceCtorEq, and_false, exists_false, or_false]
      constructor
      · rintro ⟨label, labelled, opcode, named, tokens, cut, few, deep⟩
        exact ⟨long, gap, ⟨label, labelled⟩, opcode, tokens, named, cut, few, deep⟩
      · rintro ⟨_, _, ⟨label, labelled⟩, opcode, tokens, named, cut, few, deep⟩
        exact ⟨label, labelled, opcode, named, tokens, cut, few, deep⟩
  | true =>
      constructor
      · intro impossible
        cases impossible
      · intro deep
        rw [recordShape_iff.mpr ⟨deep.long, deep.labelGap⟩] at shaped
        cases shaped

theorem split_eq_tooDeep_iff :
    SourceLine.split spareCalls number text = .error .tooDeep ↔
      HasDeepOperand spareCalls text := by
  rw [← @fields_eq_tooDeep_iff spareCalls number text]
  unfold SourceLine.split
  split
  · rename_i taken
    simp [taken]
  · rename_i taken
    simp [taken, Failure.reject]
  · rename_i taken
    simp [taken]

/-- A line is at fault itself, or the host gives up on an operand of it. -/
theorem split_failure (fails : SourceLine.split spareCalls number text = .error failure) :
    (∃ error, failure = .rejected error) ∨
      failure = .tooDeep ∧ HasDeepOperand spareCalls text := by
  have deep := (@split_eq_tooDeep_iff spareCalls number text).mp
  rw [fails] at deep
  unfold SourceLine.split at fails
  split at fails
  · cases fails
  · cases fails
    exact .inl ⟨_, rfl⟩
  · cases fails
    exact .inr ⟨rfl, deep rfl⟩

/-- A jump to an operand of nothing but signs of equality. -/
def deepLine (marks : Nat) : String :=
  String.ofList ("         JMP     ".toList ++ List.replicate marks '=')

/-- No host is spared such a line. -/
theorem hasDeepOperand_deepLine {marks : Nat} (deep : spareCalls + 1 < marks) :
    HasDeepOperand spareCalls (Text.chomp (deepLine marks)) := by
  have columns : (Text.chomp (deepLine marks)).toList =
      "         JMP     ".toList ++ List.replicate marks '=' := by
    have characters : (deepLine marks).toList =
        "         JMP     ".toList ++ List.replicate marks '=' := String.toList_ofList
    rw [Text.chomp, String.toList_ofList, characters]
    apply Text.dropEndWhile_eq_self
    intro c member
    rcases List.mem_append.mp member with opcode | operand
    · have unbroken : "         JMP     ".toList.any Text.isFileBreak = false := by decide
      exact Bool.eq_false_of_not_eq_true (List.any_eq_false.mp unbroken c opcode)
    · rw [List.eq_of_mem_replicate operand]
      decide
  have read : plainTokens (List.replicate marks '=') = [List.replicate marks '='] := by
    have told := @plainTokens_intercalate [List.replicate marks '='] []
    rw [List.append_nil, List.intercalate_singleton] at told
    apply told
    · intro token member empty
      rw [List.mem_singleton.mp member, List.replicate_eq_nil_iff] at empty
      omega
    · intro token member c inside
      rw [List.mem_singleton.mp member] at inside
      rw [List.eq_of_mem_replicate inside]
      decide
    · intro c impossible
      cases impossible
  constructor
  · rw [columns, List.length_append]
    exact Nat.le_add_right_of_le (by decide)
  · rw [columns]
    exact allBlank_iff.mp rfl
  · rw [columns]
    exact ⟨none, rfl⟩
  · rw [columns]
    refine ⟨"JMP", [List.replicate marks '='], rfl, ?_, by simp, _,
      List.mem_singleton_self _, ?_⟩
    · rw [readTokens_plain (.inl (by decide))]
      exact congrArg Except.ok read
    · rw [Token.marks_replicate]
      exact deep

end SourceLine

end Lc3Assembler
