import Lc3Assembler.Proofs.Columns
import Lc3Assembler.Proofs.Runs

/-!
# Names of a program

A label has at most six letters and digits, and a symbol operand at most seven:
the blanks around a label are dropped, and an operand ends at the first blank,
so the line feed that may follow a token never gets into a name.  Every table of
a program that was read holds only such names, and every symbol a word.
-/

namespace Lc3Assembler

namespace Text

/-- At most so many letters and digits. -/
structure IsName (most : Nat) (text : List Char) : Prop where
  short : text.length ≤ most
  plain : ∀ c ∈ text, isAlphanumeric c = true

theorem isName_iff {most : Nat} {text : List Char} :
    Token.isNameRest most text = true ↔ IsName most text := by
  constructor
  · intro checked
    simp only [Token.isNameRest, Bool.and_eq_true, decide_eq_true_eq, List.all_eq_true] at checked
    exact ⟨checked.1, checked.2⟩
  · intro name
    simp only [Token.isNameRest, Bool.and_eq_true, decide_eq_true_eq, List.all_eq_true]
    exact ⟨name.short, name.plain⟩

/-- Every character that breaks a line is blank. -/
theorem isBlank_of_isTextBreak {c : Char} (breaks : isTextBreak c = true) :
    isBlank c = true := by
  simp only [isTextBreak, inRanges, List.any_cons, List.any_nil, Bool.or_false, Bool.or_eq_true,
    Bool.and_eq_true, decide_eq_true_eq] at breaks
  simp only [isBlank, inRanges, blankRanges, List.any_cons, List.any_nil, Bool.or_false,
    Bool.or_eq_true, Bool.and_eq_true, decide_eq_true_eq]
  omega

theorem isTextBreak_of_not_blank {c : Char} (filled : isBlank c = false) :
    isTextBreak c = false := by
  cases breaks : isTextBreak c with
  | false => rfl
  | true => exact absurd (isBlank_of_isTextBreak breaks) (by simp [filled])

theorem IsName.cons {most : Nat} {lead : Char} {rest : List Char} (name : IsName most rest)
    (letter : isLetter lead = true) : IsName (most + 1) (lead :: rest) := by
  constructor
  · rw [List.length_cons]
    exact Nat.succ_le_succ name.short
  · intro c member
    rcases List.mem_cons.mp member with first | later
    · rw [first, isAlphanumeric, letter, Bool.true_or]
    · exact name.plain c later

theorem IsName.filled {most : Nat} {text : List Char} (name : IsName most text) :
    ∀ c ∈ text, isBlank c = false := fun c member =>
  isBlank_of_isAlphanumeric (name.plain c member)

theorem trim_append {first second : List Char} (nonempty : first ≠ [])
    (filled : ∀ c ∈ first, isBlank c = false) (blank : ∀ c ∈ second, isBlank c = true) :
    trim (first ++ second) = first := by
  have kept : (first ++ second).dropWhile isBlank = first ++ second := by
    obtain ⟨lead, rest, rfl⟩ := List.exists_cons_of_ne_nil nonempty
    simp [filled lead (by simp)]
  rw [trim, kept, trimEnd, dropEndWhile_append blank, dropEndWhile_eq_self filled]

end Text

namespace Token

/-- What may follow a complete token. -/
theorem exists_withoutFinalNewline (text : List Char) :
    ∃ final, text = withoutFinalNewline text ++ final ∧ ∀ c ∈ final, c = '\n' := by
  unfold withoutFinalNewline
  split
  · rename_i last
    obtain ⟨initial, rfl⟩ := List.getLast?_eq_some_iff.mp last
    exact ⟨['\n'], by simp, by simp⟩
  · exact ⟨[], by simp, by simp⟩

theorem withoutFinalNewline_eq_self {text : List Char} (absent : '\n' ∉ text) :
    withoutFinalNewline text = text := by
  unfold withoutFinalNewline
  split
  · rename_i last
    exact absurd (List.mem_of_getLast? last) absent
  · rfl

/-- A symbol without a final line feed is a name. -/
theorem isName_of_form {calls : Nat} {token : List Char}
    (read : form calls token = some .symbol) (absent : '\n' ∉ token) :
    Text.IsName 7 token := by
  have symbol := unmarkedForm_of_form read (by decide)
  unfold unmarkedForm at symbol
  split at symbol
  · cases symbol
  · split at symbol <;> cases symbol
  · split at symbol <;> cases symbol
  · rename_i lead rest _ _
    split at symbol
    · split at symbol <;> cases symbol
    · split at symbol
      · rename_i named
        rw [withoutFinalNewline_eq_self fun member => absent (by simp [member]),
          Bool.and_eq_true, Text.isName_iff] at named
        exact named.2.cons named.1
      · cases symbol

end Token

namespace SourceLine

/-- A label starts with a letter, so no comment is a labelled line. -/
theorem isLabelField_semicolon (rest : List Char) : isLabelField (';' :: rest) = false := by
  obtain ⟨final, ended, _⟩ := Token.exists_withoutFinalNewline (';' :: rest)
  obtain ⟨spaces, padded, _⟩ :=
    Text.exists_dropEndWhile (· = ' ') (Token.withoutFinalNewline (';' :: rest))
  unfold isLabelField
  split
  · rfl
  · rename_i lead others core
    rw [padded, core] at ended
    have first : ';' = lead := (List.cons.inj ended).1
    rw [← first]
    rfl

/-- A line with a label field is no comment. -/
theorem not_comment_of_readLabel {text : String} {label : Option String}
    (labelled : readLabel (labelField text.toList) = .ok label) : isComment text = false := by
  cases comment : isComment text with
  | false => rfl
  | true =>
      obtain ⟨rest, starts⟩ : ∃ rest, text.toList = ';' :: rest := by
        simpa [isComment, List.head?_eq_some_iff] using comment
      have filled : Text.allBlank (labelField (';' :: rest)) = false := rfl
      have unlabelled : isLabelField (labelField (';' :: rest)) = false :=
        isLabelField_semicolon (rest.take 5)
      rw [starts, readLabel] at labelled
      simp [filled, unlabelled] at labelled

/-- A line that can be taken apart is no comment. -/
theorem not_comment_of_split {spareCalls : Nat} {number : Int} {text : String}
    {line : SourceLine} (split : SourceLine.split spareCalls number text = .ok line) :
    isComment text = false :=
  not_comment_of_readLabel (fields_of_split split).2.1

theorem isName_of_readLabel {field : List Char} {name : String}
    (labelled : readLabel field = .ok (some name)) : Text.IsName 6 name.toList := by
  unfold readLabel at labelled
  split at labelled
  · cases labelled
  · simp only at labelled
    split at labelled
    · rename_i shaped
      cases labelled
      -- A label is followed by spaces and perhaps a line feed, which is blank too.
      obtain ⟨final, ended, newline⟩ := Token.exists_withoutFinalNewline field
      obtain ⟨spaces, padded, space⟩ :=
        Text.exists_dropEndWhile (· = ' ') (Token.withoutFinalNewline field)
      unfold isLabelField at shaped
      split at shaped
      · cases shaped
      · rename_i lead rest core
        rw [core] at padded
        simp only [Bool.and_eq_true, Text.isName_iff, isLabelLead] at shaped
        obtain ⟨⟨⟨letter, _⟩, _⟩, name⟩ := shaped
        have whole : Text.IsName 6 (lead :: rest) := name.cons letter
        have blank : ∀ c ∈ spaces ++ final, Text.isBlank c = true := by
          intro c member
          rcases List.mem_append.mp member with spaced | ending
          · rw [of_decide_eq_true (space c spaced)]
            decide
          · rw [newline c ending]
            decide
        rw [String.toList_ofList, ended, padded, List.append_assoc,
          Text.trim_append (by simp) whole.filled blank]
        exact whole
    · cases labelled

theorem mem_of_mem_splitCommas {field token : List Char} (member : token ∈ splitCommas field) :
    ∀ c ∈ token, c ∈ field := by
  induction field generalizing token with
  | nil =>
      rw [splitCommas, List.mem_singleton] at member
      simp [member]
  | cons lead rest induction =>
      rw [splitCommas] at member
      split at member
      · intro c inside
        rcases List.mem_cons.mp member with first | later
        · simp [first] at inside
        · exact List.mem_cons_of_mem _ (induction later c inside)
      · split at member
        · intro c inside
          rw [List.mem_singleton] at member
          simp_all
        · rename_i first others cut
          intro c inside
          rcases List.mem_cons.mp member with here | later
          · rw [here] at inside
            rcases List.mem_cons.mp inside with same | within
            · simp [same]
            · exact List.mem_cons_of_mem _ (induction (by simp [cut]) c within)
          · exact List.mem_cons_of_mem _ (induction (by simp [cut, later]) c inside)

/-- A token between commas holds no blank. -/
theorem filled_of_mem_plainTokens {field token : List Char}
    (member : token ∈ plainTokens field) : ∀ c ∈ token, Text.isBlank c = false := by
  intro c inside
  unfold plainTokens at member
  split at member
  · cases member
  · have kept := List.mem_takeWhile_imp (mem_of_mem_splitCommas member c inside)
    simp only [endsOperands, Bool.not_eq_true', Bool.or_eq_false_iff] at kept
    exact kept.1

theorem stringToken_eq_ok {rest token : List Char} (taken : stringToken rest = .ok token) :
    token.head? = some '"' := by
  unfold stringToken at taken
  simp only at taken
  split at taken
  · cases taken
  · split at taken
    · cases taken
      rfl
    · split at taken
      · cases taken
        rfl
      · cases taken

theorem isName_of_readTokens {opcode : String} {field token : List Char}
    {tokens : List (List Char)} (cut : readTokens opcode field = .ok tokens)
    (member : token ∈ tokens) {calls : Nat} (symbol : Token.form calls token = some .symbol) :
    Text.IsName 7 token := by
  have plain (between : token ∈ plainTokens field) : Text.IsName 7 token := by
    apply Token.isName_of_form symbol
    intro newline
    have filled := filled_of_mem_plainTokens between '\n' newline
    exact absurd filled (by decide)
  unfold readTokens at cut
  split at cut
  · split at cut
    · -- A quoted token is no symbol.
      obtain ⟨quoted, taken, rfl⟩ := map_eq_ok_iff.mp cut
      rw [List.mem_singleton] at member
      subst member
      obtain ⟨rest, rfl⟩ := List.head?_eq_some_iff.mp (stringToken_eq_ok taken)
      have quoted := Token.unmarkedForm_of_form symbol (by decide)
      simp only [Token.unmarkedForm] at quoted
      split at quoted <;> cases quoted
    · cases cut
      exact plain member
  · cases cut
    exact plain member

/-- The names that stand in a line. -/
theorem names_of_split {spareCalls : Nat} {number : Int} {text : String} {line : SourceLine}
    (split : SourceLine.split spareCalls number text = .ok line) :
    (∀ name, line.label = some name → Text.IsName 6 name.toList) ∧
      ∀ operand ∈ line.operands, operand.kind = .symbol →
        Text.IsName 7 operand.text.toList := by
  obtain ⟨_, labelled, opcode, tokens, cut, read⟩ := fields_of_split split
  constructor
  · intro name label
    rw [label] at labelled
    exact isName_of_readLabel labelled
  · intro operand member kind
    obtain ⟨_, every, rfl⟩ := readOperands_eq_ok_iff.mp read
    obtain ⟨_, parsed⟩ := (every operand member).1
    have form := (Operand.parse_eq_some_iff.mp parsed).2
    rw [Form.kind_eq_symbol_iff.mp kind] at form
    exact isName_of_readTokens cut (List.mem_map_of_mem member) form

end SourceLine

/-- The names in the tables of a program, and the words its symbols stand for. -/
structure Program.Named (program : Program) : Prop where
  segment : Text.IsName 6 program.segment.toList
  symbols : ∀ symbol ∈ program.symbols,
    Text.IsName 6 symbol.name.toList ∧ symbol.value < 0x10000
  externals : ∀ external ∈ program.externals, Text.IsName 7 external.name.toList

namespace Draft

theorem mem_declare {declarations : List Declaration} {name : String} {line : Option Int}
    {declaration : Declaration}
    (member : declaration ∈ Program.declare declarations name line) :
    declaration ∈ declarations ∨ declaration.name = name := by
  unfold Program.declare at member
  split at member
  · exact .inl member
  · rcases List.mem_append.mp member with old | new
    · exact .inl old
    · rw [List.mem_singleton.mp new]
      exact .inr rfl

/-- External names are declared by operands only. -/
theorem mem_externals_of_declareAll {number : Int} {program declared : Program}
    {operands : List Operand}
    (outcome : declareAll Program.addExternal number program operands = .ok declared)
    {external : Declaration} (member : external ∈ declared.externals) :
    external ∈ program.externals ∨ ∃ operand ∈ operands, external.name = operand.text := by
  induction operands generalizing program with
  | nil =>
      cases outcome
      exact .inl member
  | cons operand operands induction =>
      simp only [declareAll, bind_eq_ok_iff] at outcome
      obtain ⟨middle, head, tail⟩ := outcome
      rcases induction tail with earlier | ⟨other, otherMember, same⟩
      · unfold Program.addExternal Program.ifOpen at head
        split at head
        · cases head
        · cases head
          rcases mem_declare earlier with old | new
          · exact .inl old
          · exact .inr ⟨operand, List.mem_cons_self, new⟩
      · exact .inr ⟨other, List.mem_cons_of_mem _ otherMember, same⟩

theorem externals_of_declareAll_addEntry {number : Int} {program declared : Program}
    {operands : List Operand}
    (outcome : declareAll Program.addEntry number program operands = .ok declared) :
    declared.externals = program.externals := by
  induction operands generalizing program with
  | nil =>
      cases outcome
      rfl
  | cons operand operands induction =>
      simp only [declareAll, bind_eq_ok_iff] at outcome
      obtain ⟨middle, head, tail⟩ := outcome
      rw [induction tail]
      unfold Program.addEntry Program.ifOpen at head
      split at head
      · cases head
      · cases head
        rfl

theorem define_named {limits : Limits} {draft defined : Draft} {line : SourceLine} {value : Int}
    {relocatable : Bool} (named : draft.program.Named)
    (label : ∀ name, line.label = some name → Text.IsName 6 name.toList)
    (outcome : (draft.define limits line value relocatable).outcome = .ok defined) :
    defined.program.Named := by
  rcases define_eq_ok outcome with same | ⟨name, labelled, _, added⟩
  · rw [same]
    exact named
  · subst defined
    refine ⟨named.segment, ?_, named.externals⟩
    intro symbol member
    rcases List.mem_append.mp member with old | new
    · exact named.symbols symbol old
    · rw [List.mem_singleton.mp new]
      exact ⟨label name labelled, Symbol.value_define_lt _ _ _ _⟩

theorem Prepares.named {limits : Limits} {draft prepared : Draft} {line : SourceLine}
    {size : Int} {located : Bool}
    (prepares : Prepares limits draft line prepared size located)
    (invariant : draft.Invariant limits) (named : draft.program.Named)
    (accepted : line.operation.Accepts line.operands)
    (label : ∀ name, line.label = some name → Text.IsName 6 name.toList)
    (symbols : ∀ operand ∈ line.operands, operand.kind = .symbol →
      Text.IsName 7 operand.text.toList) :
    prepared.program.Named := by
  cases prepares with
  | equate _ _ _ labelled => exact define_named named label labelled
  | fill _ labelled => exact define_named named label labelled
  | string _ _ labelled => exact define_named named label labelled
  | block _ _ _ labelled => exact define_named named label labelled
  | @entry defined program _ labelled declared =>
      have before := define_named named label labelled
      have same := externals_of_declareAll_addEntry declared
      have declares := declareAll_eq_ok declares_addEntry declared
      change program.Named
      rw [declares]
      exact ⟨before.segment, before.symbols, same ▸ before.externals⟩
  | @external defined program operation labelled declared =>
      have before := define_named named label labelled
      have declares := declareAll_eq_ok declares_addExternal declared
      have externals : ∀ external ∈ program.externals,
          Text.IsName 7 external.name.toList := by
        intro external member
        rcases mem_externals_of_declareAll declared member with old | ⟨operand, new, same⟩
        · exact before.externals external old
        · rw [operation] at accepted
          have kind : operand.kind = .symbol := by
            simpa [Directive.allows, Directive.kinds] using accepted.2.2 operand new
          rw [same]
          exact symbols operand new kind
      change program.Named
      rw [declares]
      exact ⟨before.segment, before.symbols, externals⟩
  | last _ _ => exact named
  | @instruction _ defined program _ labelled pooled =>
      have before := define_named named label labelled
      have pools := invariant.pools
      rw [← (define_frame labelled).2] at pools
      change program.Named
      rw [(poolAll_eq_ok pools pooled).1]
      exact ⟨before.segment, before.symbols, before.externals⟩

theorem Takes.named {limits : Limits} {draft next : Draft} {line : SourceLine}
    (taken : Takes limits draft line next) (invariant : draft.Invariant limits)
    (named : draft.program.Named)
    (label : ∀ name, line.label = some name → Text.IsName 6 name.toList)
    (symbols : ∀ operand ∈ line.operands, operand.kind = .symbol →
      Text.IsName 7 operand.text.toList) :
    next.program.Named := by
  cases taken with
  | first _ _ _ segment _ => exact ⟨label _ segment, named.symbols, named.externals⟩
  | later _ accepted prepares _ =>
      have prepared := prepares.named invariant named accepted label symbols
      exact ⟨prepared.segment, prepared.symbols, prepared.externals⟩

theorem named_inductive (limits : Limits) :
    Inductive limits fun _ _ draft => draft.program.Named := by
  constructor
  · exact ⟨⟨by decide, by simp⟩, by simp, by simp⟩
  · intro count warnings draft named
    exact named
  · intro count warnings draft next line text progress reachable named split _ taken
    obtain ⟨label, symbols⟩ := SourceLine.names_of_split split
    exact taken.named reachable.invariant named label symbols

end Draft

theorem Program.named_of_read {limits : Limits} {source : Source} {program : Program}
    (outcome : (Program.read limits source).outcome = .ok program) : program.Named := by
  obtain ⟨_, _, last, exec, named, closed, _⟩ :=
    Program.read_invariant (Draft.named_inductive limits) outcome
  obtain ⟨_, _, _, result⟩ := Draft.close_eq_ok closed
  rw [result]
  exact ⟨named.segment, named.symbols, named.externals⟩

end Lc3Assembler
