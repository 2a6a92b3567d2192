import Lc3Assembler.Proofs.Columns

/-!
# Numerals and the numbers they denote

A numeral is a row of digits with the most significant one first.  `Text.IsNumeral` states
which number it denotes, without saying how it is read.  The number that is computed from the
digits of a token is that number, and what is printed for a number is a numeral of it.
-/

namespace Lc3Assembler

namespace Text

/-- A digit of a base, in either case, and its value. -/
def IsDigit (base : Nat) (c : Char) (digit : Nat) : Prop :=
  digit < base ∧ (c = Nat.digitChar digit ∨ c = (Nat.digitChar digit).toUpper)

instance (base : Nat) (c : Char) (digit : Nat) : Decidable (IsDigit base c digit) :=
  inferInstanceAs (Decidable (_ ∧ _))

/-- One or more digits, the most significant of them first, and the number they stand for. -/
def IsNumeral (base : Nat) (text : List Char) (number : Nat) : Prop :=
  text ≠ [] ∧ ∃ digits, List.Forall₂ (IsDigit base) text digits ∧
    Nat.ofDigits base digits.reverse = number

theorem digitOf_of_isDigit {base : Nat} {c : Char} {digit : Nat} (small : base ≤ 16)
    (isDigit : IsDigit base c digit) : Token.digitOf c = digit := by
  obtain ⟨bounded, same⟩ := isDigit
  obtain ⟨lower, upper⟩ := Token.digitOf_digitChar (Nat.lt_of_lt_of_le bounded small)
  rcases same with rfl | rfl
  · exact lower
  · exact upper

theorem le_iff_toNat_le {first second : Char} : first ≤ second ↔ first.toNat ≤ second.toNat :=
  Iff.rfl

/-- The digits of a base up to sixteen are the hexadecimal digits of a smaller value. -/
theorem isDigit_iff {base : Nat} {c : Char} (small : base ≤ 16) :
    IsDigit base c (Token.digitOf c) ↔ isHexDigit c = true ∧ Token.digitOf c < base := by
  constructor
  · rintro ⟨bounded, same⟩
    refine ⟨?_, bounded⟩
    have bound : Token.digitOf c < 16 := Nat.lt_of_lt_of_le bounded small
    generalize Token.digitOf c = digit at bound same
    rcases same with rfl | rfl <;> interval_cases digit <;> decide
  · rintro ⟨hexadecimal, bounded⟩
    refine ⟨bounded, ?_⟩
    simp only [isHexDigit, isDecimalDigit, Bool.or_eq_true, Bool.and_eq_true, decide_eq_true_eq,
      le_iff_toNat_le] at hexadecimal
    have range : (48 ≤ c.toNat ∧ c.toNat ≤ 57 ∨ 97 ≤ c.toNat ∧ c.toNat ≤ 102) ∨
        65 ≤ c.toNat ∧ c.toNat ≤ 70 := hexadecimal
    rw [← Char.ofNat_toNat c]
    generalize c.toNat = point at range
    rcases range with (⟨low, high⟩ | ⟨low, high⟩) | ⟨low, high⟩ <;>
      interval_cases point <;> decide

theorem isHexDigit_iff {c : Char} : isHexDigit c = true ↔ IsDigit 16 c (Token.digitOf c) := by
  rw [isDigit_iff (by decide)]
  simp only [isHexDigit, isDecimalDigit, Token.digitOf, le_iff_toNat_le, Char.reduceToNat,
    Bool.or_eq_true, Bool.and_eq_true, decide_eq_true_eq]
  split_ifs <;> omega

theorem isDecimalDigit_iff {c : Char} :
    isDecimalDigit c = true ↔ IsDigit 10 c (Token.digitOf c) := by
  rw [isDigit_iff (by decide)]
  simp only [isHexDigit, isDecimalDigit, Token.digitOf, le_iff_toNat_le, Char.reduceToNat,
    Bool.or_eq_true, Bool.and_eq_true, decide_eq_true_eq]
  split_ifs <;> omega

theorem isOctalDigit_iff {c : Char} :
    ('0' ≤ c && c ≤ '7') = true ↔ IsDigit 8 c (Token.digitOf c) := by
  rw [isDigit_iff (by decide)]
  simp only [isHexDigit, isDecimalDigit, Token.digitOf, le_iff_toNat_le, Char.reduceToNat,
    Bool.or_eq_true, Bool.and_eq_true, decide_eq_true_eq]
  split_ifs <;> omega

theorem positional_eq_ofDigits (base : Nat) (digits : List Nat) :
    positional base digits = Nat.ofDigits base digits.reverse := by
  rw [Nat.ofDigits_eq_foldr, List.foldr_reverse, positional]
  congr 1
  funext value digit
  simp only [Nat.cast_id]
  ring

/-- Digits denote the number that is computed from their values. -/
theorem isNumeral_iff {base : Nat} {text : List Char} {number : Nat} (small : base ≤ 16) :
    IsNumeral base text number ↔
      text ≠ [] ∧ (∀ c ∈ text, IsDigit base c (Token.digitOf c)) ∧
        Token.numberOf base text = number := by
  have values {digits : List Nat} :
      List.Forall₂ (IsDigit base) text digits ↔
        (∀ c ∈ text, IsDigit base c (Token.digitOf c)) ∧ text.map Token.digitOf = digits := by
    constructor
    · intro isDigits
      induction isDigits with
      | nil => simp
      | cons isDigit _ induction =>
          have value := digitOf_of_isDigit small isDigit
          rw [List.forall_mem_cons, List.map_cons, induction.2, value]
          exact ⟨⟨isDigit, induction.1⟩, rfl⟩
    · rintro ⟨isDigits, rfl⟩
      rw [List.forall₂_map_right_iff]
      exact List.forall₂_same.mpr isDigits
  unfold IsNumeral
  simp only [values, Token.numberOf, positional_eq_ofDigits]
  constructor
  · rintro ⟨nonempty, _, ⟨isDigits, rfl⟩, value⟩
    exact ⟨nonempty, isDigits, value⟩
  · rintro ⟨nonempty, isDigits, value⟩
    exact ⟨nonempty, _, ⟨isDigits, rfl⟩, value⟩

/-- A numeral of so many places denotes a number below that power of the base. -/
theorem IsNumeral.lt_pow {base most : Nat} {text : List Char} {number : Nat}
    (numeral : IsNumeral base text number) (low : 1 < base) (small : base ≤ 16)
    (few : text.length ≤ most) : number < base ^ most := by
  obtain ⟨_, isDigits, rfl⟩ := (isNumeral_iff small).mp numeral
  have count : ((text.map Token.digitOf).reverse).length = text.length := by simp
  have bound : Token.numberOf base text < base ^ text.length := by
    rw [Token.numberOf, positional_eq_ofDigits, ← count]
    apply Nat.ofDigits_lt_base_pow_length low
    intro digit member
    obtain ⟨c, inside, rfl⟩ := List.mem_map.mp (List.mem_reverse.mp member)
    exact (isDigits c inside).1
  exact Nat.lt_of_lt_of_le bound (Nat.pow_le_pow_right (Nat.zero_lt_of_lt low) few)

/-! ### Printed numbers -/

/-- Digits of either case are a numeral of the number that is computed from them. -/
theorem isNumeral_of_digits {base : Nat} {text : List Char} {number : Nat} (high : base ≤ 16)
    (nonempty : text ≠ []) (printed : ∀ c ∈ text, ∃ digit, IsDigit base c digit)
    (value : Token.numberOf base text = number) : IsNumeral base text number := by
  refine (isNumeral_iff high).mpr ⟨nonempty, ?_, value⟩
  intro c member
  obtain ⟨digit, isDigit⟩ := printed c member
  rw [digitOf_of_isDigit high isDigit]
  exact isDigit

theorem isNumeral_toDigits {base : Nat} (low : 1 < base) (high : base ≤ 16) (value : Nat) :
    IsNumeral base (Nat.toDigits base value) value := by
  apply isNumeral_of_digits high Nat.toDigits_ne_nil
  · intro c member
    obtain ⟨digit, small, rfl⟩ := mem_toDigits low member
    exact ⟨digit, small, .inl rfl⟩
  · exact Token.numberOf_toDigits low high value

theorem isNumeral_hexUpper (width value : Nat) :
    IsNumeral 16 (hexUpper width value).toList value := by
  apply isNumeral_of_digits (by decide)
  · rw [hexUpper, String.toList_ofList, numeral_natCast]
    simp [Nat.toDigits_ne_nil]
  · intro c member
    rw [hexUpper, String.toList_ofList] at member
    obtain ⟨digitChar, printed, rfl⟩ := List.mem_map.mp member
    obtain ⟨digit, small, rfl⟩ := mem_numeral (by decide) printed
    exact ⟨digit, small, .inr rfl⟩
  · exact numberOf_hexUpper width value

theorem toList_decimal_natCast (value : Nat) :
    (decimal value).toList = Nat.toDigits 10 value := by
  simp [decimal, numeral_natCast]

theorem toList_decimal_neg {value : Nat} (positive : 0 < value) :
    (decimal (-value)).toList = '-' :: Nat.toDigits 10 value := by
  have sign : signOf (-(value : Int)) = ['-'] := if_pos (by omega)
  simp [decimal, numeral, sign]

end Text

end Lc3Assembler
