import Mathlib
import Lc3Assembler.Proofs.Reading

/-!
# Records that were read

A record that was read fits its operation: the operands are tokens of the kinds
the operation takes, and the size is the number of words that the operation
occupies.  `LaidOut` states that records follow each other in memory without
gaps, each at the address where the one before it ends.
-/

namespace Lc3Assembler

/-- An operand that denotes what its text says. -/
def Operand.Parsed (operand : Operand) : Prop :=
  ∃ spareCalls, Operand.parse spareCalls operand.text = some operand

/-- The word that a literal operand asks the pool for. -/
def Operand.literalWord? (operand : Operand) : Option Nat :=
  match operand.form with
  | .literal _ value => some (wordOf value)
  | _ => none

/-- Whether records of an operation have an address. -/
def Operation.storage : Operation → Bool
  | .instruction _ => true
  | .directive order => order.storage
  | .unknown _ => false

namespace Form

theorem kind_eq_register_iff {form : Form} :
    form.kind = .register ↔ ∃ number, form = .register number := by
  cases form <;> simp [kind]

theorem kind_eq_immediate_iff {form : Form} :
    form.kind = .immediate ↔ ∃ base value, form = .immediate base value := by
  cases form <;> simp [kind]

theorem kind_eq_string_iff {form : Form} : form.kind = .string ↔ form = .string := by
  cases form <;> simp [kind]

theorem kind_eq_symbol_iff {form : Form} : form.kind = .symbol ↔ form = .symbol := by
  cases form <;> simp [kind]

end Form

namespace Token

theorem registerNumber?_lt {rest : List Char} {number : Nat}
    (register : registerNumber? rest = some number) : number < 8 := by
  unfold registerNumber? at register
  split at register
  · rename_i digit _
    split at register
    · rename_i octal
      cases register
      simp only [Bool.and_eq_true, decide_eq_true_eq, Char.le_def, UInt32.le_iff_toNat_le]
        at octal
      have decimal : Text.isDecimalDigit digit = true := by
        simp only [Text.isDecimalDigit, Bool.and_eq_true, decide_eq_true_eq, Char.le_def,
          UInt32.le_iff_toNat_le]
        exact ⟨octal.1, Nat.le_trans octal.2 (by decide)⟩
      have upper : digit.toNat ≤ 55 := octal.2
      simp only [digitOf, decimal, if_true]
      change digit.toNat - 48 < 8
      omega
    · cases register
  · cases register

/-- Behind an `=` there is no operand but an immediate. -/
theorem unmarkedForm_of_form {calls : Nat} {token : List Char} {result : Form}
    (read : form calls token = some result)
    (plain : result.kind ≠ .literal ∧ result.kind ≠ .malformed) :
    result = unmarkedForm token := by
  rcases form_eq_some read with ⟨_, bare⟩ | ⟨_, _, inner, _, _, _, rfl⟩
  · exact bare
  · cases inner with
    | immediate base value => exact absurd rfl plain.1
    | _ => exact absurd rfl plain.2

/-- For a token that is not malformed one further call is enough. -/
theorem form_of_form {calls : Nat} {token : List Char} {result : Form}
    (read : form calls token = some result) (shaped : result.kind ≠ .malformed) (other : Nat) :
    form (other + 1) token = some result := by
  rcases form_eq_some read with ⟨bare, rfl⟩ | ⟨_, rest, inner, _, rfl, found, rfl⟩
  · exact form_of_unmarked bare
  · cases inner with
    | immediate base value =>
        rcases form_eq_some found with ⟨bare, immediate⟩ | ⟨_, _, deeper, _, _, _, immediate⟩
        · rw [form, form_of_unmarked bare, ← immediate]
          rfl
        · cases deeper <;> cases immediate
    | _ => exact absurd rfl shaped

theorem form_register {calls : Nat} {token : List Char} {number : Nat}
    (read : form calls token = some (.register number)) : number < 8 := by
  have register := unmarkedForm_of_form read ⟨Kind.noConfusion, Kind.noConfusion⟩
  unfold unmarkedForm at register
  split at register
  · cases register
  · split at register
    · rename_i found
      cases register
      exact registerNumber?_lt found
    · cases register
  · split at register <;> cases register
  · split at register
    · split at register <;> cases register
    · split at register <;> cases register

theorem form_string {calls : Nat} {token : List Char} (read : form calls token = some .string) :
    2 ≤ token.length := by
  have string := unmarkedForm_of_form read (by decide)
  unfold unmarkedForm at string
  split at string
  · cases string
  · split at string <;> cases string
  · rename_i rest
    split at string
    · rename_i closed
      cases rest with
      | nil => simp [isStringRest, withoutFinalNewline] at closed
      | cons head tail => simp
    · cases string
  · split at string
    · split at string <;> cases string
    · split at string <;> cases string

end Token

namespace Operand

theorem Parsed.register_lt {operand : Operand} {number : Nat} (parsed : operand.Parsed)
    (register : operand.form = .register number) : number < 8 := by
  obtain ⟨_, read⟩ := parsed
  have form := (parse_eq_some_iff.mp read).2
  rw [register] at form
  exact Token.form_register form

/-- Together with its closing zero a string takes one word less than its
token has characters. -/
theorem Parsed.stringBody? {operand : Operand} (parsed : operand.Parsed)
    (string : operand.kind = .string) :
    ∃ body, operand.stringBody? = some body ∧
      (operand.text.length : Int) - 1 = body.length + 1 := by
  have form : operand.form = .string := Form.kind_eq_string_iff.mp string
  have long : 2 ≤ operand.text.length := by
    obtain ⟨_, read⟩ := parsed
    have tokenForm := (parse_eq_some_iff.mp read).2
    rw [form] at tokenForm
    rw [← String.length_toList]
    exact Token.form_string tokenForm
  refine ⟨(operand.text.toList.drop 1).dropLast, by simp [Operand.stringBody?, form], ?_⟩
  simp only [List.length_dropLast, List.length_drop, String.length_toList]
  omega

end Operand

namespace Operand

/-- What every host makes of the text of an operand that is not malformed. -/
theorem Parsed.parse_eq {operand : Operand} (parsed : operand.Parsed)
    (shaped : operand.kind ≠ .malformed) (spareCalls : Nat) :
    parse spareCalls operand.text = some operand := by
  obtain ⟨_, read⟩ := parsed
  obtain ⟨_, form⟩ := parse_eq_some_iff.mp read
  exact parse_eq_some_iff.mpr ⟨rfl, Token.form_of_form form shaped spareCalls⟩

/-- Operands that are not malformed are made of the tokens that are their texts. -/
theorem parseAll_eq_some_iff {spareCalls : Nat} {tokens : List (List Char)}
    {operands : List Operand} (shaped : ∀ operand ∈ operands, operand.kind ≠ .malformed) :
    parseAll spareCalls tokens = some operands ↔
      (∀ operand ∈ operands, operand.Parsed) ∧
        tokens = operands.map fun operand => operand.text.toList := by
  induction tokens generalizing operands with
  | nil =>
      simp only [parseAll, Option.some_inj]
      constructor
      · rintro rfl
        simp
      · rintro ⟨_, texts⟩
        exact (List.map_eq_nil_iff.mp texts.symm).symm
  | cons token rest induction =>
      simp only [parseAll]
      constructor
      · intro all
        split at all
        · cases all
        · rename_i first read
          obtain ⟨others, later, rfl⟩ := Option.map_eq_some_iff.mp all
          obtain ⟨parsed, rfl⟩ := (induction (List.forall_mem_cons.mp shaped).2).mp later
          obtain ⟨text, _⟩ := parse_eq_some_iff.mp read
          refine ⟨List.forall_mem_cons.mpr ⟨⟨spareCalls, by rw [text, read]⟩, parsed⟩, ?_⟩
          rw [List.map_cons, text, String.toList_ofList]
      · rintro ⟨parsed, texts⟩
        cases operands with
        | nil => cases texts
        | cons first others =>
            obtain ⟨rfl, rfl⟩ := List.cons.inj texts
            obtain ⟨firstShaped, othersShaped⟩ := List.forall_mem_cons.mp shaped
            obtain ⟨firstParsed, othersParsed⟩ := List.forall_mem_cons.mp parsed
            rw [String.ofList_toList, firstParsed.parse_eq firstShaped spareCalls,
              (induction othersShaped).mpr ⟨othersParsed, rfl⟩]
            rfl

end Operand

namespace SourceLine

/-- Operands are read exactly from the few tokens that are their texts, none of them
malformed. -/
theorem readOperands_eq_ok_iff {spareCalls : Nat} {tokens : List (List Char)}
    {operands : List Operand} :
    readOperands spareCalls tokens = .ok operands ↔
      operands.length ≤ 3 ∧
        (∀ operand ∈ operands, operand.Parsed ∧ operand.kind ≠ .malformed) ∧
        tokens = operands.map fun operand => operand.text.toList := by
  have malformed (operands : List Operand) :
      operands.find? (fun operand => operand.kind = .malformed) = none ↔
        ∀ operand ∈ operands, operand.kind ≠ .malformed := by
    simp
  unfold readOperands
  constructor
  · intro read
    split at read
    · cases read
    · rename_i few
      split at read
      · cases read
      · rename_i parsed all
        split at read
        · cases read
        · rename_i none
          cases read
          have shaped := (malformed operands).mp none
          obtain ⟨every, rfl⟩ := (Operand.parseAll_eq_some_iff shaped).mp all
          rw [List.length_map] at few
          exact ⟨Nat.le_of_not_lt few, fun operand member =>
            ⟨every operand member, shaped operand member⟩, rfl⟩
  · rintro ⟨few, every, texts⟩
    have shaped : ∀ operand ∈ operands, operand.kind ≠ .malformed :=
      fun operand member => (every operand member).2
    have all : Operand.parseAll spareCalls tokens = some operands :=
      (Operand.parseAll_eq_some_iff shaped).mpr
        ⟨fun operand member => (every operand member).1, texts⟩
    have room : ¬ Directive.maxOperands < tokens.length := by
      rw [texts, List.length_map]
      exact Nat.not_lt.mpr few
    simp only [if_neg room, all, (malformed operands).mpr shaped]

variable {spareCalls : Nat} {number : Int} {text : String} {line : SourceLine}

theorem fields_eq_of_split (split : SourceLine.split spareCalls number text = .ok line) :
    fields spareCalls number text.toList = .ok line := by
  unfold SourceLine.split at split
  split at split
  · rename_i taken
    cases split
    exact taken
  · cases split
  · cases split

/-- The fields of a line that was taken apart. -/
theorem fields_of_split (split : SourceLine.split spareCalls number text = .ok line) :
    line.number = number ∧ readLabel (labelField text.toList) = .ok line.label ∧
      ∃ opcode tokens,
        readTokens opcode (operandField text.toList) = .ok tokens ∧
        readOperands spareCalls tokens = .ok line.operands := by
  have taken := fields_eq_of_split split
  unfold fields at taken
  split at taken
  · simp at taken
  · simp only [bind_eq_ok_iff, pure_eq_ok, Except.ok.injEq] at taken
    obtain ⟨label, labelled, opcode, _, tokens, cut, operands, read, rfl⟩ := taken
    exact ⟨rfl, labelled, opcode, tokens, cut, read⟩

/-- A line that is taken apart somewhere is taken apart in the same way by every host. -/
theorem split_of_split (split : SourceLine.split spareCalls number text = .ok line)
    (other : Nat) : SourceLine.split other number text = .ok line := by
  have taken := fields_eq_of_split split
  have again : fields other number text.toList = .ok line := by
    unfold fields at taken ⊢
    split at taken
    · cases taken
    · rename_i shaped
      rw [if_neg shaped]
      simp only [bind_eq_ok_iff] at taken ⊢
      obtain ⟨label, labelled, opcode, named, tokens, cut, operands, read, made⟩ := taken
      exact ⟨label, labelled, opcode, named, tokens, cut, operands,
        readOperands_eq_ok_iff.mpr (readOperands_eq_ok_iff.mp read), made⟩
  unfold SourceLine.split
  rw [again]

theorem split_eq_ok (split : SourceLine.split spareCalls number text = .ok line) :
    line.number = number ∧ ∃ tokens, readOperands spareCalls tokens = .ok line.operands := by
  obtain ⟨same, _, _, tokens, _, read⟩ := fields_of_split split
  exact ⟨same, tokens, read⟩

theorem parsed_of_split (split : SourceLine.split spareCalls number text = .ok line) :
    ∀ operand ∈ line.operands, operand.Parsed := by
  obtain ⟨_, tokens, read⟩ := split_eq_ok split
  intro operand member
  exact ((readOperands_eq_ok_iff.mp read).2.1 operand member).1

end SourceLine

/-- The number of words that a record occupies. -/
def Record.Sized (record : Record) : Prop :=
  match record.operation with
  | .instruction _ => record.size = 1
  | .directive .fill => record.size = 1
  | .directive .strz =>
      ∃ operand body, record.operands = [operand] ∧ operand.stringBody? = some body ∧
        record.size = body.length + 1
  | .directive .blkw => 0 < record.size
  | _ => record.size = 0

/-- A record as reading a line leaves it. -/
structure Record.WellFormed (record : Record) : Prop where
  parsed : ∀ operand ∈ record.operands, operand.Parsed
  accepted : record.operation.Accepts record.operands
  sized : record.Sized

/-- The words that a record asks the literal pool for, in order. -/
def Record.literalWords (record : Record) : List Nat :=
  record.operands.filterMap Operand.literalWord?

/-- Records that fill memory from one address up to another. -/
inductive LaidOut : Int → List Record → Int → Prop where
  | nil {address : Int} : LaidOut address [] address
  | cons {address after : Int} {record : Record} {records : List Record} :
      record.location = (if record.operation.storage then some address else none) →
      LaidOut (address + record.size) records after →
      LaidOut address (record :: records) after

namespace LaidOut

theorem concat {address after : Int} {records : List Record} {record : Record}
    (laid : LaidOut address records after)
    (located : record.location = if record.operation.storage then some after else none) :
    LaidOut address (records ++ [record]) (after + record.size) := by
  induction laid with
  | nil => exact .cons located .nil
  | cons first _ induction => exact .cons first (induction located)

theorem after_eq {address after : Int} {records : List Record}
    (laid : LaidOut address records after) :
    after = address + (records.map Record.size).sum := by
  induction laid with
  | nil => simp
  | cons _ _ induction =>
      rw [induction, List.map_cons, List.sum_cons]
      omega

end LaidOut

theorem Record.WellFormed.size_nonneg {record : Record} (wellFormed : record.WellFormed) :
    0 ≤ record.size := by
  have sized := wellFormed.sized
  unfold Record.Sized at sized
  split at sized
  · omega
  · omega
  · obtain ⟨operand, body, _, _, size⟩ := sized
    omega
  · omega
  · omega

theorem LaidOut.le {address after : Int} {records : List Record}
    (laid : LaidOut address records after)
    (wellFormed : ∀ record ∈ records, record.WellFormed) : address ≤ after := by
  induction laid with
  | nil => exact Int.le_refl _
  | @cons _ _ record _ _ _ induction =>
      have later := induction fun other member => wellFormed other (by simp [member])
      have nonnegative := (wellFormed record (by simp)).size_nonneg
      omega

/-- As many addresses as counted, one after the other. -/
def addressesFrom (start : Int) (count : Nat) : List Int :=
  (List.range count).map fun offset : Nat => start + offset

@[simp] theorem addressesFrom_zero (start : Int) : addressesFrom start 0 = [] := rfl

theorem addressesFrom_succ (start : Int) (count : Nat) :
    addressesFrom start (count + 1) = start :: addressesFrom (start + 1) count := by
  rw [addressesFrom, List.range_succ_eq_map, List.map_cons, List.map_map]
  congr 1
  · simp
  · apply List.map_congr_left
    intro offset _
    simp only [Function.comp_apply, Nat.succ_eq_add_one, Int.natCast_add, Int.cast_ofNat_Int]
    omega

theorem mem_addressesFrom {start address : Int} {count : Nat} :
    address ∈ addressesFrom start count ↔ start ≤ address ∧ address < start + count := by
  simp only [addressesFrom, List.mem_map, List.mem_range]
  constructor
  · rintro ⟨offset, inside, rfl⟩
    omega
  · rintro ⟨low, high⟩
    exact ⟨(address - start).toNat, by omega, by omega⟩

theorem addressesFrom_add (start : Int) (first second : Nat) :
    addressesFrom start (first + second) =
      addressesFrom start first ++ addressesFrom (start + first) second := by
  rw [addressesFrom, List.range_add, List.map_append, List.map_map]
  congr 1
  apply List.map_congr_left
  intro offset _
  simp only [Function.comp_apply, Int.natCast_add]
  omega

theorem addressesFrom_pairwise (start : Int) (count : Nat) :
    (addressesFrom start count).Pairwise (· < ·) := by
  induction count generalizing start with
  | zero => exact .nil
  | succ count induction =>
      rw [addressesFrom_succ]
      refine .cons ?_ (induction (start + 1))
      intro address member
      have low := (mem_addressesFrom.mp member).1
      omega

end Lc3Assembler
