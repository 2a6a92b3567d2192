import Lc3Assembler.Proofs.Names

/-!
# The grammar of a source line

`SourceLine.Columns` states which columns a line may have for a label, an opcode and
operands, without saying how they are found.  A line is taken apart into some fields
exactly if its columns are those of the fields.
-/

namespace Lc3Assembler

namespace SourceLine

/-- What may stand behind the operands: nothing, or a text that a blank or a semicolon
opens. -/
def EndsField (behind : List Char) : Prop :=
  ∀ c, behind.head? = some c → Text.isBlank c = true ∨ c = ';'

/-- The columns of a label: blanks for none, or a name that is filled up with spaces. -/
inductive LabelColumns : List Char → Option String → Prop where
  | unlabelled {field : List Char} (blank : ∀ c ∈ field, Text.isBlank c = true) :
      LabelColumns field none
  | labelled {lead : Char} {rest : List Char} (letter : Text.isLetter lead = true)
      (free : lead ≠ 'R' ∧ lead ≠ 'x') (name : Text.IsName 5 rest) :
      LabelColumns (Text.padEnd 6 (lead :: rest)) (some (String.ofList (lead :: rest)))

/-- The columns of an opcode, which starts and ends with no blank and holds no space. -/
inductive OpcodeColumns : List Char → String → Prop where
  | opcode {name blanks : List Char} (nonempty : name ≠ [])
      (first : ∀ c, name.head? = some c → Text.isBlank c = false)
      (last : ∀ c, name.getLast? = some c → Text.isBlank c = false)
      (spaceless : ' ' ∉ name) (blank : ∀ c ∈ blanks, Text.isBlank c = true) :
      OpcodeColumns (name ++ blanks) (String.ofList name)

/-- An operand that stands between commas. -/
structure IsPlainOperand (operand : Operand) : Prop where
  parsed : operand.Parsed
  shaped : operand.kind ≠ .malformed
  plain : ∀ c ∈ operand.text.toList, Text.isBlank c = false ∧ c ≠ ',' ∧ c ≠ ';'

/-- The columns of the operands of an opcode: one string, if the opcode takes it and a quote
opens the columns, or else up to three operands between commas. -/
inductive OperandColumns (opcode : String) : List Char → List Operand → Prop where
  | string {body behind : List Char} (stores : opcode = ".STRZ") (closed : '"' ∉ body)
      (ends : EndsField behind) :
      OperandColumns opcode ('"' :: body ++ '"' :: behind)
        [{ text := String.ofList ('"' :: body ++ ['"']), form := .string }]
  | plain {operands : List Operand} {behind field : List Char}
      (joined : field = (Operand.joined operands).toList ++ behind)
      (unquoted : opcode ≠ ".STRZ" ∨ field.head? ≠ some '"') (few : operands.length ≤ 3)
      (plain : ∀ operand ∈ operands, IsPlainOperand operand) (ends : EndsField behind) :
      OperandColumns opcode field operands

/-- The columns of a line with the fields that stand in them. -/
structure Columns (columns : List Char) (label : Option String) (opcode : String)
    (operands : List Operand) : Prop where
  long : 10 ≤ columns.length
  labelField : LabelColumns (columns.take 6) label
  labelGap : ∀ c ∈ (columns.drop 6).take 3, Text.isBlank c = true
  opcodeField : OpcodeColumns ((columns.drop 9).take 5) opcode
  opcodeGap : ∀ c ∈ (columns.drop 14).take 3, Text.isBlank c = true
  operandField : OperandColumns opcode (columns.drop 17) operands

theorem allBlank_iff {text : List Char} :
    Text.allBlank text = true ↔ ∀ c ∈ text, Text.isBlank c = true :=
  List.all_eq_true

/-! ### Labels -/

theorem isLabelField_iff {field : List Char} (single : '\n' ∉ field) (wide : field.length = 6) :
    isLabelField field = true ↔
      ∃ lead rest, Text.isLetter lead = true ∧ (lead ≠ 'R' ∧ lead ≠ 'x') ∧
        Text.IsName 5 rest ∧ field = Text.padEnd 6 (lead :: rest) := by
  have shape (lead : Char) (rest : List Char) :
      (isLabelLead lead && Token.isNameRest 5 rest) = true ↔
        Text.isLetter lead = true ∧ (lead ≠ 'R' ∧ lead ≠ 'x') ∧ Text.IsName 5 rest := by
    simp [isLabelLead, Text.isName_iff, and_assoc]
  unfold isLabelField
  rw [Token.withoutFinalNewline_eq_self single]
  constructor
  · intro shaped
    split at shaped
    · cases shaped
    · rename_i lead rest core
      obtain ⟨letter, free, name⟩ := (shape lead rest).mp shaped
      obtain ⟨spaces, padded, space⟩ := Text.exists_dropEndWhile (· = ' ') field
      rw [core] at padded
      refine ⟨lead, rest, letter, free, name, ?_⟩
      rw [padded, List.length_append] at wide
      rw [padded, Text.padEnd, ← wide, Nat.add_sub_cancel_left]
      congr 1
      exact List.eq_replicate_of_mem fun c member => of_decide_eq_true (space c member)
  · rintro ⟨lead, rest, letter, free, name, rfl⟩
    have filled : ∀ c ∈ lead :: rest, decide (c = ' ') = false := by
      intro c member
      have plain := (name.cons letter).filled c member
      apply decide_eq_false
      rintro rfl
      cases plain
    have core : Text.dropEndWhile (· = ' ') (Text.padEnd 6 (lead :: rest)) = lead :: rest := by
      rw [Text.padEnd, Text.dropEndWhile_append (by simp), Text.dropEndWhile_eq_self filled]
    rw [core]
    exact (shape lead rest).mpr ⟨letter, free, name⟩

/-- A label field is read exactly if its columns are those of the label. -/
theorem readLabel_eq_ok_iff {field : List Char} {label : Option String}
    (single : '\n' ∉ field) (wide : field.length = 6) :
    readLabel field = .ok label ↔ LabelColumns field label := by
  have padded {lead : Char} {rest : List Char} (letter : Text.isLetter lead = true)
      (name : Text.IsName 5 rest) :
      Text.allBlank (Text.padEnd 6 (lead :: rest)) = false ∧
        Text.trim (Text.padEnd 6 (lead :: rest)) = lead :: rest := by
    have filled := (name.cons letter).filled
    constructor
    · rw [Text.padEnd, List.cons_append, Text.allBlank, List.all_cons, filled lead (by simp),
        Bool.false_and]
    · apply Text.trim_append (List.cons_ne_nil lead rest) filled
      intro c member
      rw [List.eq_of_mem_replicate member]
      decide
  unfold readLabel
  constructor
  · intro read
    split at read
    · rename_i blank
      cases read
      exact .unlabelled (allBlank_iff.mp blank)
    · simp only at read
      split at read
      · rename_i shaped
        obtain ⟨lead, rest, letter, free, name, rfl⟩ := (isLabelField_iff single wide).mp shaped
        cases read
        rw [(padded letter name).2]
        exact .labelled letter free name
      · cases read
  · intro columns
    cases columns with
    | unlabelled blank => rw [if_pos (allBlank_iff.mpr blank)]
    | @labelled lead rest letter free name =>
        obtain ⟨filled, core⟩ := padded letter name
        have shaped := (isLabelField_iff single wide).mpr ⟨lead, rest, letter, free, name, rfl⟩
        simp only [filled, shaped, core, if_true, Bool.false_eq_true, if_false]

/-! ### Opcodes -/

theorem trimEnd_eq_iff {field name : List Char} :
    Text.trimEnd field = name ↔
      (∀ c, name.getLast? = some c → Text.isBlank c = false) ∧
        ∃ blanks, field = name ++ blanks ∧ ∀ c ∈ blanks, Text.isBlank c = true := by
  constructor
  · rintro rfl
    obtain ⟨blanks, cut, blank⟩ := Text.exists_dropEndWhile Text.isBlank field
    refine ⟨?_, blanks, cut, blank⟩
    intro c last
    have nonempty : Text.trimEnd field ≠ [] := by
      intro empty
      rw [empty] at last
      cases last
    rw [List.getLast?_eq_some_getLast nonempty, Option.some_inj] at last
    rw [← last]
    exact Bool.eq_false_of_not_eq_true (List.rdropWhile_last_not Text.isBlank field nonempty)
  · rintro ⟨last, blanks, rfl, blank⟩
    rw [Text.trimEnd, Text.dropEndWhile_append blank]
    apply List.rdropWhile_eq_self_iff.mpr
    intro nonempty
    rw [last _ (List.getLast?_eq_some_getLast nonempty)]
    exact Bool.false_ne_true

/-- An opcode field is read exactly if its columns are those of the opcode, and its gap is
blank. -/
theorem readOpcode_eq_ok_iff {field gap : List Char} {opcode : String} :
    readOpcode field gap = .ok opcode ↔
      OpcodeColumns field opcode ∧ ∀ c ∈ gap, Text.isBlank c = true := by
  have shape (name : List Char) :
      ((name.head?.map Text.isBlank).getD true || name.contains ' ' ||
          !Text.allBlank gap) = false ↔
        (name ≠ [] ∧ ∀ c, name.head? = some c → Text.isBlank c = false) ∧ ' ' ∉ name ∧
          ∀ c ∈ gap, Text.isBlank c = true := by
    rw [← allBlank_iff]
    cases name with
    | nil => simp
    | cons lead rest => simp [and_assoc]
  unfold readOpcode
  simp only
  constructor
  · intro read
    split at read
    · cases read
    · rename_i shaped
      cases read
      obtain ⟨⟨nonempty, first⟩, spaceless, gapBlank⟩ :=
        (shape _).mp (Bool.eq_false_of_not_eq_true shaped)
      obtain ⟨last, blanks, cut, blank⟩ := trimEnd_eq_iff.mp (rfl : Text.trimEnd field = _)
      have columns := OpcodeColumns.opcode nonempty first last spaceless blank
      rw [← cut] at columns
      exact ⟨columns, gapBlank⟩
  · rintro ⟨columns, gapBlank⟩
    cases columns with
    | @opcode name blanks nonempty first last spaceless blank =>
        rw [trimEnd_eq_iff.mpr ⟨last, blanks, rfl, blank⟩,
          (shape name).mpr ⟨⟨nonempty, first⟩, spaceless, gapBlank⟩]
        rfl

/-! ### Operands -/

theorem splitCommas_eq_splitOn (field : List Char) : splitCommas field = field.splitOn ',' := by
  induction field with
  | nil => rfl
  | cons c rest induction =>
      obtain ⟨first, others, cut⟩ := List.exists_cons_of_ne_nil (List.splitOn_ne_nil ',' rest)
      rw [splitCommas, List.splitOn_cons_eq_if_modifyHead, induction, cut]
      by_cases comma : c = ','
      · rw [if_pos comma, if_pos (by simp [comma])]
      · rw [if_neg comma, if_neg (by simp [comma])]
        rfl

theorem not_mem_of_mem_splitCommas {field token : List Char}
    (member : token ∈ splitCommas field) : ',' ∉ token := by
  induction field generalizing token with
  | nil =>
      rw [splitCommas, List.mem_singleton] at member
      simp [member]
  | cons c rest induction =>
      rw [splitCommas] at member
      split at member
      · rcases List.mem_cons.mp member with rfl | later
        · simp
        · exact induction later
      · rename_i kept
        split at member
        · rw [List.mem_singleton] at member
          simp [member, Ne.symm kept]
        · rename_i first others cut
          rcases List.mem_cons.mp member with rfl | later
          · have inside : ',' ∉ first := induction (by simp [cut])
            simp [inside, Ne.symm kept]
          · exact induction (by simp [cut, later])

theorem plain_of_mem_plainTokens {field token : List Char}
    (member : token ∈ plainTokens field) :
    ∀ c ∈ token, Text.isBlank c = false ∧ c ≠ ',' ∧ c ≠ ';' := by
  intro c inside
  unfold plainTokens at member
  split at member
  · cases member
  · have kept := List.mem_takeWhile_imp (mem_of_mem_splitCommas member c inside)
    simp only [endsOperands, Bool.not_eq_true', Bool.or_eq_false_iff, decide_eq_false_iff_not]
      at kept
    refine ⟨kept.1, ?_, kept.2⟩
    rintro rfl
    exact not_mem_of_mem_splitCommas member inside

theorem toList_intercalate_comma (texts : List String) :
    (",".intercalate texts).toList = [','].intercalate (texts.map String.toList) :=
  String.toList_intercalate

theorem endsField_iff {behind : List Char} :
    EndsField behind ↔ ∀ c, behind.head? = some c → endsOperands c = true := by
  simp [EndsField, endsOperands]

/-- The tokens of a field are what commas join in front of its end. -/
theorem plainTokens_cut (field : List Char) :
    ∃ behind, field = [','].intercalate (plainTokens field) ++ behind ∧ EndsField behind := by
  have joined : [','].intercalate (plainTokens field) =
      field.takeWhile (!endsOperands ·) := by
    unfold plainTokens
    split
    · rename_i empty
      rw [empty, List.intercalate_nil]
    · rw [splitCommas_eq_splitOn, List.intercalate_splitOn]
  refine ⟨field.dropWhile (!endsOperands ·), ?_, endsField_iff.mpr ?_⟩
  · rw [joined, List.takeWhile_append_dropWhile]
  · intro c first
    have stops := List.head?_dropWhile_not (!endsOperands ·) field
    rw [first] at stops
    simpa using stops

/-- Tokens that are joined by commas are told apart again. -/
theorem plainTokens_intercalate {tokens : List (List Char)} {behind : List Char}
    (nonempty : ∀ token ∈ tokens, token ≠ [])
    (plain : ∀ token ∈ tokens, ∀ c ∈ token, endsOperands c = false ∧ c ≠ ',')
    (ends : EndsField behind) :
    plainTokens ([','].intercalate tokens ++ behind) = tokens := by
  have kept : ∀ c ∈ [','].intercalate tokens, (!endsOperands c) = true := by
    intro c member
    rcases Text.mem_intercalate member with comma | ⟨token, isToken, inside⟩
    · rw [List.mem_singleton.mp comma]
      decide
    · rw [(plain token isToken c inside).1]
      rfl
  have stops : behind.takeWhile (!endsOperands ·) = [] := by
    cases behind with
    | nil => rfl
    | cons c rest => simp [endsField_iff.mp ends c rfl]
  unfold plainTokens
  rw [List.takeWhile_append_of_pos kept, stops, List.append_nil]
  cases tokens with
  | nil => rfl
  | cons first others =>
      have filled : [','].intercalate (first :: others) ≠ [] := by
        have lead : first ≠ [] := nonempty first List.mem_cons_self
        cases others with
        | nil => simpa using lead
        | cons second others => simp [List.intercalate_cons_cons, lead]
      split
      · rename_i empty
        exact absurd empty filled
      · rw [splitCommas_eq_splitOn, List.splitOn_intercalate ',' _ (List.cons_ne_nil first others)]
        exact fun token member comma => (plain token member ',' comma).2 rfl

/-- A string is taken up to the next quote, behind which the operands have to end. -/
theorem stringToken_eq_ok_iff {rest token : List Char} :
    stringToken rest = .ok token ↔
      ∃ body behind, rest = body ++ '"' :: behind ∧ '"' ∉ body ∧ EndsField behind ∧
        token = '"' :: body ++ ['"'] := by
  unfold stringToken
  constructor
  · intro taken
    have whole := List.takeWhile_append_dropWhile (p := (· != '"')) (l := rest)
    have tail : (rest.takeWhile (· != '"') ++ rest.dropWhile (· != '"')).drop
        (rest.takeWhile (· != '"')).length = rest.dropWhile (· != '"') := List.drop_left
    rw [whole] at tail
    have closed : '"' ∉ rest.takeWhile (· != '"') := by
      intro quote
      have kept := List.mem_takeWhile_imp quote
      cases kept
    simp only [tail] at taken
    have stops := List.head?_dropWhile_not (· != '"') rest
    split at taken
    · cases taken
    · rename_i mark after cut
      rw [cut] at whole stops
      obtain rfl : mark = '"' := by simpa using stops
      split at taken
      · rename_i none
        cases taken
        exact ⟨_, after, whole.symm, closed, by simp [EndsField, none], rfl⟩
      · rename_i next first
        split at taken
        · rename_i ends
          cases taken
          exact ⟨_, after, whole.symm, closed, endsField_iff.mpr (by simpa [first] using ends),
            rfl⟩
        · cases taken
  · rintro ⟨body, behind, rfl, closed, ends, rfl⟩
    have kept : ∀ c ∈ body, (c != '"') = true := by
      intro c member
      rw [bne_iff_ne]
      rintro rfl
      exact closed member
    have front : (body ++ '"' :: behind).takeWhile (· != '"') = body := by
      rw [List.takeWhile_append_of_pos kept, List.takeWhile_cons_of_neg (by simp),
        List.append_nil]
    simp only [front, List.drop_left]
    cases first : behind.head? with
    | none => rfl
    | some next => simp only [endsField_iff.mp ends next first, if_true]

/-- A token between quotes is a string, and nothing else is read from it. -/
theorem parsed_and_text_eq_iff {body : List Char} {operand : Operand} :
    operand.Parsed ∧ '"' :: body ++ ['"'] = operand.text.toList ↔
      operand = { text := String.ofList ('"' :: body ++ ['"']), form := .string } := by
  have closed : Token.isStringRest (body ++ ['"']) = true := by
    simp [Token.isStringRest, Token.withoutFinalNewline]
  have string (calls : Nat) : Token.form calls ('"' :: body ++ ['"']) = some .string := by
    rw [Token.form_of_unmarked (by simp), List.cons_append]
    simp [Token.unmarkedForm, closed]
  constructor
  · rintro ⟨⟨_, read⟩, text⟩
    have form := (Operand.parse_eq_some_iff.mp read).2
    rw [← text, string, Option.some_inj] at form
    rw [text, String.ofList_toList, form]
  · rintro rfl
    rw [String.toList_ofList]
    exact ⟨⟨0, Operand.parse_eq_some_iff.mpr ⟨rfl, by rw [String.toList_ofList, string]⟩⟩, rfl⟩

theorem readTokens_string {rest : List Char} :
    readTokens ".STRZ" ('"' :: rest) = (stringToken rest).map ([·]) :=
  rfl

theorem readTokens_plain {opcode : String} {field : List Char}
    (unquoted : opcode ≠ ".STRZ" ∨ field.head? ≠ some '"') :
    readTokens opcode field = .ok (plainTokens field) := by
  unfold readTokens
  split
  · rename_i rest
    split
    · rename_i stores
      rcases unquoted with other | bare
      · exact absurd stores other
      · exact absurd rfl bare
    · rfl
  · rfl

theorem readPlain_eq_ok_iff {spareCalls : Nat} {field : List Char} {operands : List Operand} :
    readOperands spareCalls (plainTokens field) = .ok operands ↔
      ∃ behind, field = (Operand.joined operands).toList ++ behind ∧ operands.length ≤ 3 ∧
        (∀ operand ∈ operands, IsPlainOperand operand) ∧ EndsField behind := by
  have joined : (Operand.joined operands).toList =
      [','].intercalate (operands.map fun operand => operand.text.toList) := by
    rw [Operand.joined, toList_intercalate_comma, List.map_map]
    rfl
  rw [readOperands_eq_ok_iff, joined]
  constructor
  · rintro ⟨few, every, tokens⟩
    obtain ⟨behind, cut, ends⟩ := plainTokens_cut field
    rw [tokens] at cut
    refine ⟨behind, cut, few, ?_, ends⟩
    intro operand member
    obtain ⟨parsed, shaped⟩ := every operand member
    have isToken : operand.text.toList ∈ plainTokens field := by
      rw [tokens]
      exact List.mem_map_of_mem member
    exact ⟨parsed, shaped, plain_of_mem_plainTokens isToken⟩
  · rintro ⟨behind, rfl, few, plain, ends⟩
    refine ⟨few, fun operand member => ⟨(plain operand member).parsed,
      (plain operand member).shaped⟩, ?_⟩
    apply plainTokens_intercalate _ _ ends
    · intro token member empty
      obtain ⟨operand, isOperand, rfl⟩ := List.mem_map.mp member
      apply (plain operand isOperand).shaped
      obtain ⟨_, read⟩ := (plain operand isOperand).parsed
      have form := (Operand.parse_eq_some_iff.mp read).2
      rw [empty, Token.form_of_unmarked (by simp), Option.some_inj] at form
      rw [Operand.kind, ← form]
      rfl
    · intro token member c inside
      obtain ⟨operand, isOperand, rfl⟩ := List.mem_map.mp member
      obtain ⟨filled, notComma, notSemicolon⟩ := (plain operand isOperand).plain c inside
      exact ⟨by simp [endsOperands, filled, notSemicolon], notComma⟩

/-- Operand columns are read exactly if they are those of the operands. -/
theorem readField_eq_ok_iff {spareCalls : Nat} {opcode : String} {field : List Char}
    {operands : List Operand} :
    (readTokens opcode field >>= readOperands spareCalls) = .ok operands ↔
      OperandColumns opcode field operands := by
  by_cases quoted : opcode = ".STRZ" ∧ field.head? = some '"'
  · obtain ⟨rfl, opens⟩ := quoted
    obtain ⟨rest, rfl⟩ := List.head?_eq_some_iff.mp opens
    rw [readTokens_string]
    constructor
    · intro read
      obtain ⟨tokens, taken, read⟩ := bind_eq_ok_iff.mp read
      obtain ⟨token, string, rfl⟩ := map_eq_ok_iff.mp taken
      obtain ⟨body, behind, rfl, closed, ends, rfl⟩ := stringToken_eq_ok_iff.mp string
      obtain ⟨_, every, texts⟩ := readOperands_eq_ok_iff.mp read
      obtain ⟨operand, rfl, text⟩ := List.map_eq_singleton_iff.mp texts.symm
      have string := parsed_and_text_eq_iff.mp
        ⟨(every operand (List.mem_singleton_self operand)).1, text.symm⟩
      rw [string]
      exact .string rfl closed ends
    · intro columns
      cases columns with
      | @string body behind _ closed ends =>
          have string := stringToken_eq_ok_iff.mpr
            ⟨body, behind, rfl, closed, ends, (rfl : '"' :: body ++ ['"'] = _)⟩
          refine bind_eq_ok_iff.mpr ⟨_, map_eq_ok_iff.mpr ⟨_, string, rfl⟩, ?_⟩
          apply readOperands_eq_ok_iff.mpr
          refine ⟨by simp, ?_, by simp⟩
          intro operand member
          have made := List.mem_singleton.mp member
          refine ⟨(parsed_and_text_eq_iff.mpr made).1, ?_⟩
          rw [made]
          exact Kind.noConfusion
      | plain _ unquoted => simp at unquoted
  · have unquoted := not_and_or.mp quoted
    rw [readTokens_plain unquoted, ok_bind, readPlain_eq_ok_iff]
    constructor
    · rintro ⟨behind, joined, few, plain, ends⟩
      exact .plain joined unquoted few plain ends
    · intro columns
      cases columns with
      | string stores => exact absurd ⟨stores, rfl⟩ quoted
      | @plain _ behind _ joined _ few plain ends =>
          exact ⟨behind, joined, few, plain, ends⟩

theorem recordShape_iff {line : List Char} :
    (decide (line.length ≤ 9) || !Text.allBlank (labelGap line)) = false ↔
      10 ≤ line.length ∧ ∀ c ∈ labelGap line, Text.isBlank c = true := by
  rw [← allBlank_iff, Bool.or_eq_false_iff, decide_eq_false_iff_not, Bool.not_eq_false', Nat.not_le]
  rfl

/-- A line without a line feed is taken apart into some fields exactly if its columns are
those of the fields. -/
theorem split_eq_ok_iff_columns {text : String} (single : '\n' ∉ text.toList)
    (spareCalls : Nat) (number : Int) (line : SourceLine) :
    SourceLine.split spareCalls number text = .ok line ↔
      ∃ label opcode operands,
        line = { number, label, operation := .ofName opcode, operands } ∧
          Columns text.toList label opcode operands := by
  have taken : SourceLine.split spareCalls number text = .ok line ↔
      fields spareCalls number text.toList = .ok line :=
    ⟨fields_eq_of_split, fun taken => by rw [SourceLine.split, taken]⟩
  rw [taken]
  unfold fields
  cases shaped : decide (text.toList.length ≤ 9) || !Text.allBlank (labelGap text.toList) with
  | false =>
      obtain ⟨long, gap⟩ := recordShape_iff.mp shaped
      have wide : (labelField text.toList).length = 6 := by
        simp only [labelField, List.length_take]
        omega
      have fieldSingle : '\n' ∉ labelField text.toList :=
        fun member => single (List.mem_of_mem_take member)
      simp only [Bool.false_eq_true, if_false, bind_eq_ok_iff, pure_eq_ok, Except.ok.injEq,
        readLabel_eq_ok_iff fieldSingle wide, readOpcode_eq_ok_iff]
      constructor
      · rintro ⟨label, labelled, opcode, ⟨named, opcodeGap⟩, tokens, cut, operands, read, rfl⟩
        have operandColumns := readField_eq_ok_iff.mp (bind_eq_ok_iff.mpr ⟨tokens, cut, read⟩)
        exact ⟨label, opcode, operands, rfl,
          ⟨long, labelled, gap, named, opcodeGap, operandColumns⟩⟩
      · rintro ⟨label, opcode, operands, rfl, columns⟩
        obtain ⟨tokens, cut, read⟩ :=
          bind_eq_ok_iff.mp (readField_eq_ok_iff.mpr columns.operandField)
        exact ⟨label, columns.labelField, opcode, ⟨columns.opcodeField, columns.opcodeGap⟩,
          tokens, cut, operands, read, rfl⟩
  | true =>
      constructor
      · intro impossible
        cases impossible
      · rintro ⟨_, _, _, _, columns⟩
        rw [recordShape_iff.mpr ⟨columns.long, columns.labelGap⟩] at shaped
        cases shaped

/-- A labelled string that holds a blank, a comma and a semicolon, in front of a comment. -/
def stringLine : String :=
  "MSG      .STRZ   \"a, b; c\" ; note"

theorem stringLine_columns :
    '\n' ∉ stringLine.toList ∧
      SourceLine.split defaultSpareCalls 7 stringLine =
        .ok { number := 7, label := some "MSG", operation := .directive .strz,
              operands := [{ text := "\"a, b; c\"", form := .string }] } ∧
      ∃ label opcode operands,
        ({ number := 7, label := some "MSG", operation := .directive .strz,
           operands := [{ text := "\"a, b; c\"", form := .string }] } : SourceLine) =
            { number := 7, label, operation := .ofName opcode, operands } ∧
          Columns stringLine.toList label opcode operands := by
  have single : '\n' ∉ stringLine.toList := by decide +kernel
  have taken : SourceLine.split defaultSpareCalls 7 stringLine =
      .ok { number := 7, label := some "MSG", operation := .directive .strz,
            operands := [{ text := "\"a, b; c\"", form := .string }] } := by
    decide +kernel
  exact ⟨single, taken, (split_eq_ok_iff_columns single defaultSpareCalls 7 _).mp taken⟩

end SourceLine

end Lc3Assembler
