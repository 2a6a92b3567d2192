import Lc3Assembler.Proofs.Names
import Lc3Assembler.Proofs.Numerals

/-!
# The grammar of operands

`Token.Denotes` states which texts are operands, of which kind, and which number they stand
for, without saying how a token is examined.  A token is classified as the grammar says of
it, where one line feed may follow the text, unless it starts with more signs of equality
than calls may nest.  The two other rules that repeat a part of the grammar, for the value
of an immediate and for a label, never part from it.
-/

namespace Lc3Assembler

namespace Token

/-- A token spells a text that one line feed may follow. -/
def Spells (token text : List Char) : Prop :=
  token = text ∨ token = text ++ ['\n']

/-- The operands: the text of each, its kind, the number it stands for and the base that
number is written in. -/
inductive Denotes : List Char → Kind → Option Int → Option Base → Prop where
  | register {digit : Char} {number : Nat} (octal : Text.IsDigit 8 digit number) :
      Denotes ['R', digit] .register (some number) none
  | hexadecimal {digits : List Char} {number : Nat} (few : digits.length ≤ 4)
      (numeral : Text.IsNumeral 16 digits number) :
      Denotes ('x' :: digits) .immediate (some number) (some .hexadecimal)
  | decimal {digits : List Char} {number : Nat} (few : digits.length ≤ 5)
      (numeral : Text.IsNumeral 10 digits number) :
      Denotes ('#' :: digits) .immediate (some number) (some .decimal)
  | negative {digits : List Char} {number : Nat} (few : digits.length ≤ 5)
      (numeral : Text.IsNumeral 10 digits number) :
      Denotes ('#' :: '-' :: digits) .immediate (some (-number)) (some .decimal)
  | literal {text : List Char} {value : Option Int} {base : Option Base}
      (immediate : Denotes text .immediate value base) :
      Denotes ('=' :: text) .literal value base
  | string {body : List Char} : Denotes ('"' :: body ++ ['"']) .string none none
  | symbol {lead : Char} {rest : List Char} (letter : Text.isLetter lead = true)
      (free : lead ≠ 'R' ∧ lead ≠ 'x') (name : Text.IsName 6 rest) :
      Denotes (lead :: rest) .symbol none none

end Token

theorem Form.kind_eq_malformed_iff {form : Form} :
    form.kind = .malformed ↔ form = .malformed := by
  cases form <;> simp [kind]

/-! ### Tokens and the line feed behind them -/

namespace Token

theorem Spells.cons {lead : Char} {rest text : List Char} (spells : Spells rest text) :
    Spells (lead :: rest) (lead :: text) := by
  rcases spells with rfl | rfl
  · exact .inl rfl
  · exact .inr rfl

theorem Spells.exists_rest {lead : Char} {token text : List Char}
    (spells : Spells token (lead :: text)) :
    ∃ rest, token = lead :: rest ∧ Spells rest text := by
  rcases spells with rfl | rfl
  · exact ⟨text, rfl, .inl rfl⟩
  · exact ⟨text ++ ['\n'], rfl, .inr rfl⟩

theorem spells_withoutFinalNewline (token : List Char) :
    Spells token (withoutFinalNewline token) := by
  unfold withoutFinalNewline
  split
  · rename_i last
    obtain ⟨front, rfl⟩ := List.getLast?_eq_some_iff.mp last
    exact .inr (by simp)
  · exact .inl rfl

/-- A text that ends with no line feed is all that is left of the token. -/
theorem Spells.withoutFinalNewline_eq {token text : List Char} (spells : Spells token text)
    (last : text.getLast? ≠ some '\n') : withoutFinalNewline token = text := by
  unfold withoutFinalNewline
  rcases spells with rfl | rfl
  · rw [if_neg last]
  · simp

theorem spells_iff_eq {token text : List Char} (absent : '\n' ∉ token) :
    Spells token text ↔ token = text := by
  constructor
  · rintro (same | rfl)
    · exact same
    · simp at absent
  · exact .inl

theorem getLast?_ne_newline {test : Char → Prop} {text : List Char}
    (passes : ∀ c ∈ text, test c) (fails : ¬test '\n') : text.getLast? ≠ some '\n' :=
  fun last => fails (passes _ (List.mem_of_getLast? last))

/-! ### Immediates -/

/-- Digits are accepted exactly if they are a numeral of no more places. -/
theorem isNumber_iff {base most : Nat} {rest : List Char} {test : Char → Bool} {number : Nat}
    (small : base ≤ 16) (digits : ∀ c, test c = true ↔ Text.IsDigit base c (digitOf c)) :
    isNumber test most (withoutFinalNewline rest) = true ∧
        numberOf base (withoutFinalNewline rest) = number ↔
      ∃ text, Spells rest text ∧ text.length ≤ most ∧ Text.IsNumeral base text number := by
  have checked (text : List Char) :
      isNumber test most text = true ∧ numberOf base text = number ↔
        text.length ≤ most ∧ Text.IsNumeral base text number := by
    have filled : 1 ≤ text.length ↔ text ≠ [] := List.length_pos_iff
    simp only [Text.isNumeral_iff small, isNumber, Bool.and_eq_true, decide_eq_true_eq,
      List.all_eq_true, digits, filled]
    tauto
  rw [checked]
  constructor
  · intro numeral
    exact ⟨_, spells_withoutFinalNewline rest, numeral⟩
  · rintro ⟨text, spells, few, numeral⟩
    have newline : ¬Text.IsDigit base '\n' (digitOf '\n') := by
      rintro ⟨_, same⟩
      exact absurd same (by decide)
    obtain ⟨_, isDigits, _⟩ := (Text.isNumeral_iff small).mp numeral
    rw [spells.withoutFinalNewline_eq (getLast?_ne_newline isDigits newline)]
    exact ⟨few, numeral⟩

/-- The text behind a number sign is an unsigned numeral, so it starts with no minus sign. -/
theorem immediate?_of_isNumeral {rest digits : List Char} {number : Nat}
    (spells : Spells rest digits) (few : digits.length ≤ 5)
    (numeral : Text.IsNumeral 10 digits number) :
    immediate? ('#' :: rest) = some (.decimal, (number : Int)) := by
  obtain ⟨checked, same⟩ :=
    (isNumber_iff (by decide) @Text.isDecimalDigit_iff).mpr ⟨digits, spells, few, numeral⟩
  unfold immediate?
  split
  · rename_i impossible
    cases impossible
  · rename_i behind signed
    cases signed
    -- Only here can the two rules for decimal numbers be confused: a minus sign is no digit.
    obtain ⟨nonempty, isDigits, _⟩ := (Text.isNumeral_iff (by decide)).mp numeral
    obtain ⟨lead, others, rfl⟩ := List.exists_cons_of_ne_nil nonempty
    obtain ⟨_, cut, _⟩ := spells.exists_rest
    cases cut
    exact absurd (isDigits '-' List.mem_cons_self) (by decide)
  · rename_i behind unsigned
    cases unsigned
    simp only [checked, same, if_true]
  · rename_i unmatched
    exact absurd rfl (unmatched rest)

/-- An immediate is read exactly if the grammar has it. -/
theorem immediate?_eq_some_iff {token : List Char} {base : Base} {value : Int} :
    immediate? token = some (base, value) ↔
      ∃ text, Spells token text ∧ Denotes text .immediate (some value) (some base) := by
  constructor
  · intro read
    unfold immediate? at read
    split at read
    · simp only [Option.ite_none_right_eq_some, Option.some.injEq, Prod.mk.injEq] at read
      obtain ⟨checked, rfl, rfl⟩ := read
      obtain ⟨text, spells, few, numeral⟩ :=
        (isNumber_iff (by decide) @Text.isHexDigit_iff).mp ⟨checked, rfl⟩
      exact ⟨_, spells.cons, .hexadecimal few numeral⟩
    · simp only [Option.ite_none_right_eq_some, Option.some.injEq, Prod.mk.injEq] at read
      obtain ⟨checked, rfl, rfl⟩ := read
      obtain ⟨text, spells, few, numeral⟩ :=
        (isNumber_iff (by decide) @Text.isDecimalDigit_iff).mp ⟨checked, rfl⟩
      exact ⟨_, spells.cons.cons, .negative few numeral⟩
    · simp only [Option.ite_none_right_eq_some, Option.some.injEq, Prod.mk.injEq] at read
      obtain ⟨checked, rfl, rfl⟩ := read
      obtain ⟨text, spells, few, numeral⟩ :=
        (isNumber_iff (by decide) @Text.isDecimalDigit_iff).mp ⟨checked, rfl⟩
      exact ⟨_, spells.cons, .decimal few numeral⟩
    · cases read
  · rintro ⟨text, spells, denotes⟩
    cases denotes with
    | @hexadecimal digits number few numeral =>
        obtain ⟨rest, rfl, behind⟩ := spells.exists_rest
        obtain ⟨checked, same⟩ :=
          (isNumber_iff (by decide) @Text.isHexDigit_iff).mpr ⟨digits, behind, few, numeral⟩
        simp only [immediate?, checked, same, if_true]
    | decimal few numeral =>
        obtain ⟨rest, rfl, behind⟩ := spells.exists_rest
        exact immediate?_of_isNumeral behind few numeral
    | @negative digits number few numeral =>
        obtain ⟨_, rfl, signed⟩ := spells.exists_rest
        obtain ⟨rest, rfl, behind⟩ := signed.exists_rest
        obtain ⟨checked, same⟩ :=
          (isNumber_iff (by decide) @Text.isDecimalDigit_iff).mpr ⟨digits, behind, few, numeral⟩
        simp only [immediate?, checked, same, if_true]

theorem Denotes.exists_value {text : List Char} {value : Option Int} {base : Option Base}
    (denotes : Denotes text .immediate value base) :
    ∃ number written, value = some number ∧ base = some written := by
  cases denotes with
  | hexadecimal _ _ => exact ⟨_, _, rfl, rfl⟩
  | decimal _ _ => exact ⟨_, _, rfl, rfl⟩
  | negative _ _ => exact ⟨_, _, rfl, rfl⟩

/-! ### Operands of every kind -/

theorem head?_of_immediate? {token : List Char} {base : Base} {value : Int}
    (read : immediate? token = some (base, value)) :
    token.head? = some 'x' ∨ token.head? = some '#' := by
  unfold immediate? at read
  split at read
  · exact .inl rfl
  · exact .inr rfl
  · exact .inr rfl
  · cases read

theorem unmarkedForm_of_immediate? {token : List Char} {base : Base} {value : Int}
    (read : immediate? token = some (base, value)) :
    token.head? ≠ some '=' ∧ unmarkedForm token = .immediate base value := by
  rcases head?_of_immediate? read with start | start <;>
  · obtain ⟨rest, rfl⟩ := List.head?_eq_some_iff.mp start
    simp [unmarkedForm, read]

theorem registerNumber?_eq_some_iff {rest : List Char} {number : Nat} :
    registerNumber? rest = some number ↔
      ∃ digit, Spells rest [digit] ∧ Text.IsDigit 8 digit number := by
  unfold registerNumber?
  constructor
  · intro read
    split at read
    · rename_i digit single
      have spells := spells_withoutFinalNewline rest
      rw [single] at spells
      rw [Option.ite_none_right_eq_some, Option.some.injEq] at read
      obtain ⟨octal, rfl⟩ := read
      exact ⟨digit, spells, Text.isOctalDigit_iff.mp octal⟩
    · cases read
  · rintro ⟨digit, spells, octal⟩
    have value := Text.digitOf_of_isDigit (by decide) octal
    rw [← value] at octal
    have newline : [digit].getLast? ≠ some '\n' := by
      rintro ⟨⟩
      exact absurd octal (by decide)
    rw [spells.withoutFinalNewline_eq newline]
    simp only [Text.isOctalDigit_iff.mpr octal, value, if_true]

/-- A token that is neither malformed nor marked spells an operand of the grammar. -/
theorem denotes_of_unmarkedForm {token : List Char} {result : Form}
    (read : unmarkedForm token = result) (shaped : result ≠ .malformed) :
    ∃ text, Spells token text ∧ Denotes text result.kind result.value? result.base? := by
  unfold unmarkedForm at read
  split at read
  · exact absurd read.symm shaped
  · split at read
    · rename_i rest number found
      obtain ⟨digit, spells, octal⟩ := registerNumber?_eq_some_iff.mp found
      subst read
      exact ⟨_, spells.cons, .register octal⟩
    · exact absurd read.symm shaped
  · split at read
    · rename_i rest closed
      subst read
      obtain ⟨body, ends⟩ := List.getLast?_eq_some_iff.mp (of_decide_eq_true closed)
      have spells := spells_withoutFinalNewline rest
      rw [ends] at spells
      exact ⟨_, spells.cons, .string⟩
    · exact absurd read.symm shaped
  · rename_i lead rest notRegister _
    split at read
    · split at read
      · rename_i base value found
        subst read
        exact immediate?_eq_some_iff.mp found
      · exact absurd read.symm shaped
    · rename_i notImmediate
      split at read
      · rename_i named
        subst read
        rw [Bool.and_eq_true, Text.isName_iff] at named
        have free : lead ≠ 'R' ∧ lead ≠ 'x' :=
          ⟨notRegister, fun hexadecimal => notImmediate (.inl hexadecimal)⟩
        exact ⟨_, (spells_withoutFinalNewline rest).cons, .symbol named.1 free named.2⟩
      · exact absurd read.symm shaped

/-- A token that is not malformed spells an operand of the grammar. -/
theorem denotes_of_form {calls : Nat} {token : List Char} {result : Form}
    (read : form calls token = some result) (shaped : result ≠ .malformed) :
    ∃ text, Spells token text ∧ Denotes text result.kind result.value? result.base? := by
  induction calls generalizing token result with
  | zero =>
      rcases form_eq_some read with ⟨_, bare⟩ | ⟨_, _, _, impossible, _⟩
      · exact denotes_of_unmarkedForm bare.symm shaped
      · cases impossible
  | succ calls induction =>
      rcases form_eq_some read with ⟨_, bare⟩ | ⟨_, rest, inner, same, rfl, found, rfl⟩
      · exact denotes_of_unmarkedForm bare.symm shaped
      · cases same
        cases inner with
        | immediate base value =>
            obtain ⟨text, spells, denotes⟩ := induction found Form.noConfusion
            exact ⟨_, spells.cons, .literal denotes⟩
        | _ => exact absurd rfl shaped

/-- A token that starts like a symbol is one exactly if the rest of it is a name. -/
theorem unmarkedForm_of_isLetter {lead : Char} (letter : Text.isLetter lead = true)
    (free : lead ≠ 'R' ∧ lead ≠ 'x') (rest : List Char) :
    unmarkedForm (lead :: rest) =
      if isNameRest 6 (withoutFinalNewline rest) then .symbol else .malformed := by
  have other {c : Char} (sign : Text.isLetter c = false) : lead ≠ c := by
    rintro rfl
    rw [letter] at sign
    cases sign
  -- The two letters with a rule of their own are ruled out, and no sign is a letter.
  have notHash : ¬(lead = 'x' ∨ lead = '#') := by
    rintro (hexadecimal | hash)
    · exact free.2 hexadecimal
    · exact other (by decide) hash
  unfold unmarkedForm
  split
  · rename_i empty
    cases empty
  · rename_i start
    exact absurd (List.cons.inj start).1 free.1
  · rename_i start
    exact absurd (List.cons.inj start).1 (other (by decide))
  · rename_i start
    cases start
    rw [if_neg notHash, letter, Bool.true_and]

theorem Denotes.immediate?_eq {token text : List Char} {value : Option Int}
    {base : Option Base} (denotes : Denotes text .immediate value base)
    (spells : Spells token text) :
    ∃ number written, immediate? token = some (written, number) ∧ value = some number ∧
      base = some written := by
  obtain ⟨number, written, rfl, rfl⟩ := denotes.exists_value
  exact ⟨number, written, immediate?_eq_some_iff.mpr ⟨text, spells, denotes⟩, rfl, rfl⟩

theorem form_eq_immediate_iff {calls : Nat} {token : List Char} {base : Base} {value : Int} :
    form calls token = some (.immediate base value) ↔
      immediate? token = some (base, value) := by
  constructor
  · intro read
    obtain ⟨text, spells, denotes⟩ := denotes_of_form read Form.noConfusion
    exact immediate?_eq_some_iff.mpr ⟨text, spells, denotes⟩
  · intro read
    obtain ⟨bare, immediate⟩ := unmarkedForm_of_immediate? read
    rw [form_of_unmarked bare, immediate]

/-- A token is classified as the operand of the grammar that it spells. -/
theorem Denotes.form {calls : Nat} {token text : List Char} {kind : Kind} {value : Option Int}
    {base : Option Base} (denotes : Denotes text kind value base) (spells : Spells token text)
    {result : Form} (read : Token.form calls token = some result) :
    result.kind = kind ∧ result.value? = value ∧ result.base? = base := by
  have immediate {value : Option Int} {base : Option Base}
      (denotes : Denotes text .immediate value base) :
      result.kind = .immediate ∧ result.value? = value ∧ result.base? = base := by
    obtain ⟨_, _, found, rfl, rfl⟩ := denotes.immediate?_eq spells
    rw [form_eq_immediate_iff.mpr found] at read
    cases read
    exact ⟨rfl, rfl, rfl⟩
  cases denotes with
  | @register digit number octal =>
      obtain ⟨rest, rfl, behind⟩ := spells.exists_rest
      have register := registerNumber?_eq_some_iff.mpr ⟨digit, behind, octal⟩
      rw [form_of_unmarked (by simp)] at read
      cases read
      simp [unmarkedForm, register, Form.kind, Form.value?, Form.base?]
  | hexadecimal few numeral => exact immediate (.hexadecimal few numeral)
  | decimal few numeral => exact immediate (.decimal few numeral)
  | negative few numeral => exact immediate (.negative few numeral)
  | @literal inner _ _ denotes =>
      obtain ⟨rest, rfl, behind⟩ := spells.exists_rest
      obtain ⟨number, written, inside, rfl, rfl⟩ := denotes.immediate?_eq behind
      rcases form_eq_some read with ⟨marked, _⟩ | ⟨_, _, _, _, same, found, rfl⟩
      · exact absurd rfl marked
      · cases same
        rw [form_eq_immediate_iff.mpr inside] at found
        cases found
        exact ⟨rfl, rfl, rfl⟩
  | @string body =>
      obtain ⟨rest, rfl, behind⟩ := spells.exists_rest
      have closed : isStringRest rest = true := by
        rw [isStringRest, behind.withoutFinalNewline_eq (by simp)]
        simp
      rw [form_of_unmarked (by simp)] at read
      cases read
      simp [unmarkedForm, closed, Form.kind, Form.value?, Form.base?]
  | @symbol lead rest letter free name =>
      obtain ⟨tail, rfl, behind⟩ := spells.exists_rest
      have newline : rest.getLast? ≠ some '\n' := getLast?_ne_newline name.plain (by decide)
      have bare : (lead :: tail).head? ≠ some '=' := by
        rintro ⟨⟩
        cases letter
      rw [form_of_unmarked bare, unmarkedForm_of_isLetter letter free,
        behind.withoutFinalNewline_eq newline, if_pos (Text.isName_iff.mpr name)] at read
      cases read
      exact ⟨rfl, rfl, rfl⟩

/-! ### Values of immediates and literals -/

/-- Up to four hexadecimal digits are a word, and up to five decimal digits stand for a number
that is less than a hundred thousand. -/
theorem Denotes.range {text : List Char} {kind : Kind} {base : Option Base} {value : Option Int}
    (denotes : Denotes text kind value base) :
    (base = some .hexadecimal → ∃ number, value = some number ∧ 0 ≤ number ∧ number ≤ 65535) ∧
      (base = some .decimal →
        ∃ number, value = some number ∧ -99999 ≤ number ∧ number ≤ 99999) := by
  induction denotes with
  | register octal => simp
  | @hexadecimal digits number few numeral =>
      have bound : number < 16 ^ 4 := numeral.lt_pow (by decide) (by decide) few
      exact ⟨fun _ => ⟨number, rfl, by omega, by omega⟩, by simp⟩
  | @decimal digits number few numeral =>
      have bound : number < 10 ^ 5 := numeral.lt_pow (by decide) (by decide) few
      exact ⟨by simp, fun _ => ⟨number, rfl, by omega, by omega⟩⟩
  | @negative digits number few numeral =>
      have bound : number < 10 ^ 5 := numeral.lt_pow (by decide) (by decide) few
      exact ⟨by simp, fun _ => ⟨-number, rfl, by omega, by omega⟩⟩
  | literal _ induction => exact induction
  | string => simp
  | symbol letter free name => simp

theorem form_range {calls : Nat} {token : List Char} {result : Form}
    (read : form calls token = some result) :
    (result.base? = some .hexadecimal →
        ∃ value, result.value? = some value ∧ 0 ≤ value ∧ value ≤ 65535) ∧
      (result.base? = some .decimal →
        ∃ value, result.value? = some value ∧ -99999 ≤ value ∧ value ≤ 99999) := by
  by_cases malformed : result = .malformed
  · simp [malformed, Form.base?]
  · obtain ⟨_, _, denotes⟩ := denotes_of_form read malformed
    exact denotes.range

theorem unmarked_of_head? {token : String} (bare : token.toList.head? ≠ some '=') :
    unmarked token = token := by
  rw [unmarked, if_neg bare]

theorem unmarked_of_cons {token : String} {rest : List Char}
    (marked : token.toList = '=' :: rest) : unmarked token = String.ofList rest := by
  simp [unmarked, marked]

theorem immediateValue_eq_ok_iff {spareCalls : Nat} {token : String} {value : Int} :
    immediateValue spareCalls token = .ok value ↔
      ∃ base, form spareCalls (unmarked token).toList = some (.immediate base value) := by
  simp only [immediateValue]
  split
  · rename_i deep
    simp [deep]
  · rename_i base number read
    simp [read]
  · rename_i other notImmediate read
    simp only [read, Option.some_inj, reduceCtorEq, false_iff, not_exists]
    exact fun base => notImmediate base value

theorem immediateValue_eq_notImmediate_iff {spareCalls : Nat} {token refused : String} :
    immediateValue spareCalls token = .error (.notImmediate refused) ↔
      (∃ other, form spareCalls (unmarked token).toList = some other ∧
        other.kind ≠ .immediate) ∧ refused = unmarked token := by
  simp only [immediateValue]
  split
  · rename_i deep
    simp [deep]
  · rename_i base number read
    simp [read, Form.kind]
  · rename_i other notImmediate read
    have kind : other.kind ≠ .immediate := by
      intro immediate
      obtain ⟨base, value, rfl⟩ := Form.kind_eq_immediate_iff.mp immediate
      exact notImmediate base value rfl
    rw [read]
    constructor
    · rintro ⟨⟩
      exact ⟨⟨other, rfl, kind⟩, rfl⟩
    · rintro ⟨_, rfl⟩
      rfl

/-! ### Calls that nest -/

/-- A mark is one call less, so no more calls nest behind a mark than in front of it. -/
theorem marks_unmarked (token : String) :
    marks (unmarked token).toList = marks token.toList - 1 := by
  by_cases marked : token.toList.head? = some '='
  · obtain ⟨rest, cut⟩ := List.head?_eq_some_iff.mp marked
    rw [unmarked_of_cons cut, String.toList_ofList, cut]
    simp [marks]
  · rw [unmarked_of_head? marked, marks_of_unmarked marked]

/-- A value is asked for too deep exactly where a kind is. -/
theorem immediateValue_eq_tooDeep_iff {spareCalls : Nat} {token : String} :
    immediateValue spareCalls token = .error .tooDeep ↔
      spareCalls + 1 < marks token.toList := by
  have deep : immediateValue spareCalls token = .error .tooDeep ↔
      form spareCalls (unmarked token).toList = none := by
    simp only [immediateValue]
    split
    · rename_i none
      simp [none]
    · rename_i read
      simp [read]
    · rename_i read
      simp [read]
  rw [deep, form_eq_none_iff, marks_unmarked]
  omega

/-- What is classified is classified in the same way if more calls may nest. -/
theorem form_succ {calls : Nat} {token : List Char} {result : Form}
    (read : form calls token = some result) : form (calls + 1) token = some result := by
  induction calls generalizing token result with
  | zero =>
      rcases form_eq_some read with ⟨bare, rfl⟩ | ⟨_, _, _, impossible, _⟩
      · exact form_of_unmarked bare
      · cases impossible
  | succ calls induction =>
      rcases form_eq_some read with ⟨bare, rfl⟩ | ⟨_, rest, inner, same, rfl, found, rfl⟩
      · exact form_of_unmarked bare
      · cases same
        rw [form, induction found]
        rfl

end Token

namespace Operand

/-- What the grammar says of a token that is read as an operand: of the operand, and of the
value where this is asked for by itself. -/
structure FollowsGrammar (spareCalls : Nat) (token : String) (operand : Operand) : Prop where
  text : operand.text = token
  kinds : ∀ kind, kind ≠ .malformed →
    (operand.kind = kind ↔
      ∃ text value base,
        Token.Spells token.toList text ∧ Token.Denotes text kind value base)
  malformed : operand.kind = .malformed ↔
    ∀ text kind value base,
      Token.Spells token.toList text → ¬Token.Denotes text kind value base
  literals : operand.kind = .literal ↔
    ∃ immediate inner, token = "=" ++ immediate ∧ parse spareCalls immediate = some inner ∧
      inner.kind = .immediate
  values : ∀ text kind value base,
    Token.Spells token.toList text → Token.Denotes text kind value base →
      operand.form.value? = value ∧ operand.form.base? = base
  valueless : operand.kind = .malformed →
    operand.form.value? = none ∧ operand.form.base? = none
  hexadecimals : operand.form.base? = some .hexadecimal →
    ∃ value, operand.form.value? = some value ∧ 0 ≤ value ∧ value ≤ 65535
  decimals : operand.form.base? = some .decimal →
    ∃ value, operand.form.value? = some value ∧ -99999 ≤ value ∧ value ≤ 99999
  immediates : ∀ value, Token.immediateValue spareCalls token = .ok value ↔
    ∃ bare, parse spareCalls (Token.unmarked token) = some bare ∧ bare.kind = .immediate ∧
      bare.form.value? = some value
  refusals : ∀ refused,
    Token.immediateValue spareCalls token = .error (.notImmediate refused) ↔
      (∃ bare, parse spareCalls (Token.unmarked token) = some bare ∧ bare.kind ≠ .immediate) ∧
        refused = Token.unmarked token
  agreement : operand.kind = .immediate ∨ operand.kind = .literal →
    ∃ value, operand.form.value? = some value ∧
      Token.immediateValue spareCalls token = .ok value

variable {spareCalls : Nat} {token : String} {operand : Operand}

theorem form_of_parse (read : parse spareCalls token = some operand) :
    Token.form (spareCalls + 1) token.toList = some operand.form :=
  (parse_eq_some_iff.mp read).2

theorem kind_parse_eq_iff (read : parse spareCalls token = some operand) {kind : Kind}
    (shaped : kind ≠ .malformed) :
    operand.kind = kind ↔
      ∃ text value base,
        Token.Spells token.toList text ∧ Token.Denotes text kind value base := by
  constructor
  · rintro rfl
    obtain ⟨text, spells, denotes⟩ :=
      Token.denotes_of_form (form_of_parse read) (mt Form.kind_eq_malformed_iff.mpr shaped)
    exact ⟨text, _, _, spells, denotes⟩
  · rintro ⟨text, value, base, spells, denotes⟩
    exact (denotes.form spells (form_of_parse read)).1

theorem kind_parse_eq_malformed_iff (read : parse spareCalls token = some operand) :
    operand.kind = .malformed ↔
      ∀ text kind value base,
        Token.Spells token.toList text → ¬Token.Denotes text kind value base := by
  constructor
  · intro malformed text kind value base spells denotes
    have same := (denotes.form spells (form_of_parse read)).1
    rw [← Operand.kind, malformed] at same
    subst same
    cases denotes
  · intro none
    by_contra shaped
    obtain ⟨text, value, base, spells, denotes⟩ := (kind_parse_eq_iff read shaped).mp rfl
    exact none text _ value base spells denotes

theorem kind_parse_eq_literal_iff (read : parse spareCalls token = some operand) :
    operand.kind = .literal ↔
      ∃ immediate inner, token = "=" ++ immediate ∧
        parse spareCalls immediate = some inner ∧ inner.kind = .immediate := by
  rw [kind_parse_eq_iff read (by decide)]
  constructor
  · rintro ⟨_, _, _, spells, denotes⟩
    cases denotes with
    | literal immediate =>
        obtain ⟨rest, cut, behind⟩ := spells.exists_rest
        obtain ⟨number, written, found, _, _⟩ := immediate.immediate?_eq behind
        refine ⟨String.ofList rest, ⟨String.ofList rest, .immediate written number⟩, ?_, ?_,
          rfl⟩
        · rw [← String.toList_inj, cut]
          simp
        · rw [← String.toList_ofList (l := rest)] at found
          exact parse_eq_some_iff.mpr ⟨rfl, Token.form_eq_immediate_iff.mpr found⟩
  · rintro ⟨immediate, inner, rfl, behind, kind⟩
    obtain ⟨text, value, base, spells, denotes⟩ :=
      (kind_parse_eq_iff behind (by decide)).mp kind
    have marked : ("=" ++ immediate).toList = '=' :: immediate.toList := by simp
    refine ⟨_, value, base, ?_, denotes.literal⟩
    rw [marked]
    exact spells.cons

/-- An immediate has no mark, and a literal has the value of the immediate behind its mark. -/
theorem immediateValue_of_kind (read : parse spareCalls token = some operand)
    (numeric : operand.kind = .immediate ∨ operand.kind = .literal) :
    ∃ value, operand.form.value? = some value ∧
      Token.immediateValue spareCalls token = .ok value := by
  simp only [Token.immediateValue_eq_ok_iff, Token.form_eq_immediate_iff]
  rcases numeric with kind | kind
  · obtain ⟨base, value, immediate⟩ := Form.kind_eq_immediate_iff.mp kind
    have found := form_of_parse read
    rw [immediate, Token.form_eq_immediate_iff] at found
    rw [Token.unmarked_of_head? (Token.unmarkedForm_of_immediate? found).1, immediate]
    exact ⟨value, rfl, base, found⟩
  · obtain ⟨_, _, _, spells, denotes⟩ := (kind_parse_eq_iff read (by decide)).mp kind
    have same := (denotes.form spells (form_of_parse read)).2.1
    cases denotes with
    | literal immediate =>
        obtain ⟨rest, cut, behind⟩ := spells.exists_rest
        obtain ⟨value, base, found, rfl, rfl⟩ := immediate.immediate?_eq behind
        refine ⟨value, same, base, ?_⟩
        rw [Token.unmarked_of_cons cut, String.toList_ofList, found]

/-- A text without blanks fills a label field exactly if it is a symbol of no more than six
characters. -/
theorem isLabelField_iff_symbol (filled : ∀ c ∈ token.toList, Text.isBlank c = false) :
    SourceLine.isLabelField token.toList = true ↔
      ∃ operand, parse spareCalls token = some operand ∧ operand.kind = .symbol ∧
        token.toList.length ≤ 6 := by
  have newline : '\n' ∉ token.toList := fun member => absurd (filled _ member) (by decide)
  have spaces : ∀ c ∈ token.toList, decide (c = ' ') = false := by
    intro c member
    apply decide_eq_false
    rintro rfl
    exact absurd (filled _ member) (by decide)
  unfold SourceLine.isLabelField
  rw [Token.withoutFinalNewline_eq_self newline, Text.dropEndWhile_eq_self spaces]
  constructor
  · intro shaped
    split at shaped
    · cases shaped
    · rename_i lead rest chars
      simp only [SourceLine.isLabelLead, Bool.and_eq_true, bne_iff_ne, Text.isName_iff] at shaped
      obtain ⟨⟨⟨letter, notRegister⟩, notHexadecimal⟩, name⟩ := shaped
      have longer : Text.IsName 6 rest := ⟨Nat.le_succ_of_le name.short, name.plain⟩
      have bare : token.toList.head? ≠ some '=' := by
        rw [chars]
        rintro ⟨⟩
        cases letter
      have read : parse spareCalls token =
          some ⟨token, Token.unmarkedForm token.toList⟩ :=
        parse_eq_some_iff.mpr ⟨rfl, Token.form_of_unmarked bare⟩
      refine ⟨_, read, ?_, ?_⟩
      · apply (kind_parse_eq_iff read Kind.noConfusion).mpr
        exact ⟨_, none, none, .inl chars, .symbol letter ⟨notRegister, notHexadecimal⟩ longer⟩
      · rw [chars]
        exact Nat.succ_le_succ name.short
  · rintro ⟨operand, read, symbol, short⟩
    obtain ⟨_, _, _, spells, denotes⟩ := (kind_parse_eq_iff read Kind.noConfusion).mp symbol
    have chars := (Token.spells_iff_eq newline).mp spells
    cases denotes with
    | symbol letter free name =>
        rw [chars] at short ⊢
        have shorter : Text.IsName 5 _ := ⟨Nat.le_of_succ_le_succ short, name.plain⟩
        simp [SourceLine.isLabelLead, letter, free, Text.isName_iff.mpr shorter]

/-- The value of a token is the one of the operand behind its mark. -/
theorem immediateValue_eq_ok_iff_parse {value : Int} :
    Token.immediateValue spareCalls token = .ok value ↔
      ∃ bare, parse spareCalls (Token.unmarked token) = some bare ∧ bare.kind = .immediate ∧
        bare.form.value? = some value := by
  rw [Token.immediateValue_eq_ok_iff]
  constructor
  · rintro ⟨base, found⟩
    exact ⟨⟨Token.unmarked token, .immediate base value⟩,
      parse_eq_some_iff.mpr ⟨rfl, Token.form_succ found⟩, rfl, rfl⟩
  · rintro ⟨bare, read, immediate, denoted⟩
    obtain ⟨base, number, form⟩ := Form.kind_eq_immediate_iff.mp immediate
    rw [form] at denoted
    cases denoted
    have found := form_of_parse read
    rw [form, Token.form_eq_immediate_iff] at found
    exact ⟨base, Token.form_eq_immediate_iff.mpr found⟩

/-- A token without a value is named without its mark, if not too many calls nest. -/
theorem immediateValue_eq_notImmediate_iff_parse
    (read : parse spareCalls token = some operand) {refused : String} :
    Token.immediateValue spareCalls token = .error (.notImmediate refused) ↔
      (∃ bare, parse spareCalls (Token.unmarked token) = some bare ∧ bare.kind ≠ .immediate) ∧
        refused = Token.unmarked token := by
  rw [Token.immediateValue_eq_notImmediate_iff]
  apply and_congr_left
  intro _
  constructor
  · rintro ⟨other, found, kind⟩
    exact ⟨⟨Token.unmarked token, other⟩,
      parse_eq_some_iff.mpr ⟨rfl, Token.form_succ found⟩, kind⟩
  · rintro ⟨bare, behind, kind⟩
    have room : ¬ spareCalls < Token.marks (Token.unmarked token).toList := by
      have shallow := mt parse_eq_none_iff.mpr (Option.ne_none_iff_exists'.mpr ⟨operand, read⟩)
      rw [Token.marks_unmarked]
      omega
    obtain ⟨other, found⟩ :=
      Option.ne_none_iff_exists'.mp (mt Token.form_eq_none_iff.mp room)
    have same := (Token.form_succ found).symm.trans (form_of_parse behind)
    cases same
    exact ⟨_, found, kind⟩

/-- A token is read exactly if no more calls have to nest than may nest, and its value is asked
for in vain exactly then.  A token that is read follows the grammar, also where only its value
is asked for, and a token without blanks is a label exactly if it is read as a short symbol. -/
theorem parse_followsGrammar (spareCalls : Nat) (token : String) :
    (parse spareCalls token = none ↔ spareCalls + 1 < Token.marks token.toList) ∧
      (Token.immediateValue spareCalls token = .error .tooDeep ↔
        spareCalls + 1 < Token.marks token.toList) ∧
      (∀ operand, parse spareCalls token = some operand →
        FollowsGrammar spareCalls token operand) ∧
      ((∀ c ∈ token.toList, Text.isBlank c = false) →
        (SourceLine.isLabelField token.toList = true ↔
          ∃ operand, parse spareCalls token = some operand ∧ operand.kind = .symbol ∧
            token.toList.length ≤ 6)) := by
  refine ⟨parse_eq_none_iff, Token.immediateValue_eq_tooDeep_iff, ?_, isLabelField_iff_symbol⟩
  intro operand read
  exact {
    text := (parse_eq_some_iff.mp read).1
    kinds := fun _ shaped => kind_parse_eq_iff read shaped
    malformed := kind_parse_eq_malformed_iff read
    literals := kind_parse_eq_literal_iff read
    values := fun _ _ _ _ spells denotes => (denotes.form spells (form_of_parse read)).2
    valueless := by
      intro malformed
      rw [Form.kind_eq_malformed_iff.mp malformed]
      exact ⟨rfl, rfl⟩
    hexadecimals := (Token.form_range (form_of_parse read)).1
    decimals := (Token.form_range (form_of_parse read)).2
    immediates := fun _ => immediateValue_eq_ok_iff_parse
    refusals := fun _ => immediateValue_eq_notImmediate_iff_parse read
    agreement := immediateValue_of_kind read }

/-- A token of nothing but marks. -/
def nestedMarks (count : Nat) : String :=
  String.ofList (List.replicate count '=')

/-- If there are more than calls may nest, it is not even called malformed. -/
theorem parse_nestedMarks :
    parse defaultSpareCalls (nestedMarks 5000) = none ∧
      Token.immediateValue defaultSpareCalls (nestedMarks 5000) = .error .tooDeep := by
  have deep : defaultSpareCalls + 1 < Token.marks (nestedMarks 5000).toList := by
    rw [nestedMarks, String.toList_ofList, Token.marks_replicate]
    decide
  exact ⟨parse_eq_none_iff.mpr deep, Token.immediateValue_eq_tooDeep_iff.mpr deep⟩

/-- The line feed that may follow a literal is the one that may follow the immediate in it: a
second one is not accepted behind a literal, although the rest of it is an immediate with one. -/
theorem parse_secondNewline :
    (parse defaultSpareCalls "x1\n").map kind = some .immediate ∧
      (parse defaultSpareCalls "=x1\n").map kind = some .literal ∧
      (parse defaultSpareCalls "=x1\n\n").map kind = some .malformed := by
  decide +kernel

end Operand

end Lc3Assembler
