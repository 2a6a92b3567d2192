import Mathlib
import Lc3Assembler.Operand

/-!
# Columns of a printed line

A number that needs no more than some places is printed in exactly so many, and
its digits denote the number again.  A name that is filled up with blanks comes
back when the blanks at its end are dropped.  So a column that is wide enough is
read by its position alone.
-/

namespace Lc3Assembler

/-- A hexadecimal digit as it is printed in addresses and words. -/
def Text.isPrintedDigit (c : Char) : Bool :=
  isDecimalDigit c || ('A' ≤ c && c ≤ 'F')

namespace Token

theorem numberOf_append (base : Nat) (first second : List Char) :
    numberOf base (first ++ second) =
      numberOf base first * base ^ second.length + numberOf base second := by
  induction second using List.reverseRecOn with
  | nil => simp [numberOf, Text.positional]
  | append_singleton second digit induction =>
      have last (digits : List Char) :
          numberOf base (digits ++ [digit]) = numberOf base digits * base + digitOf digit := by
        simp [numberOf, Text.positional]
      rw [← List.append_assoc, last, last, induction, List.length_append, List.length_singleton,
        pow_succ]
      ring

theorem numberOf_zeros (base count : Nat) : numberOf base (List.replicate count '0') = 0 := by
  induction count with
  | zero => rfl
  | succ count induction =>
      have zero : digitOf '0' = 0 := by decide
      rw [List.replicate_succ', numberOf_append, induction, Nat.zero_mul, Nat.zero_add]
      simp [numberOf, Text.positional, zero]

theorem digitOf_digitChar {digit : Nat} (small : digit < 16) :
    digitOf (Nat.digitChar digit) = digit ∧ digitOf (Nat.digitChar digit).toUpper = digit := by
  interval_cases digit <;> decide

theorem numberOf_toDigits {base : Nat} (low : 1 < base) (high : base ≤ 16) (value : Nat) :
    numberOf base (Nat.toDigits base value) = value := by
  induction value using Nat.strongRecOn with
  | ind value induction =>
      have single {digit : Nat} (small : digit < base) :
          numberOf base [Nat.digitChar digit] = digit := by
        simp [numberOf, Text.positional, (digitOf_digitChar (Nat.lt_of_lt_of_le small high)).1]
      rw [Nat.toDigits_eq_if low]
      by_cases small : value < base
      · rw [if_pos small, single small]
      · have smaller : value / base < value := Nat.div_lt_self (by omega) low
        rw [if_neg small, numberOf_append, induction (value / base) smaller,
          single (Nat.mod_lt value (by omega)), List.length_singleton, pow_one]
        exact Nat.div_add_mod' value base

end Token

namespace Text

theorem isBlank_of_isAlphanumeric {c : Char} (plain : isAlphanumeric c = true) :
    isBlank c = false := by
  simp only [isAlphanumeric, isLetter, isDecimalDigit, Bool.or_eq_true, Bool.and_eq_true,
    decide_eq_true_eq, Char.le_def, UInt32.le_iff_toNat_le] at plain
  have ranges : (65 ≤ c.toNat ∧ c.toNat ≤ 90 ∨ 97 ≤ c.toNat ∧ c.toNat ≤ 122) ∨
      48 ≤ c.toNat ∧ c.toNat ≤ 57 := plain
  simp only [isBlank, inRanges, blankRanges, List.any_eq_false, Bool.and_eq_true,
    decide_eq_true_eq]
  simp only [List.forall_mem_cons]
  refine ⟨?_, ?_, ?_, ?_, ?_, ?_, ?_, ?_, ?_, ?_, by simp⟩ <;> omega

theorem isAlphanumeric_of_isPrintedDigit {c : Char} (printed : isPrintedDigit c = true) :
    isAlphanumeric c = true := by
  simp only [isPrintedDigit, isAlphanumeric, isLetter, isDecimalDigit, Bool.or_eq_true,
    Bool.and_eq_true, decide_eq_true_eq, Char.le_def, UInt32.le_iff_toNat_le] at printed ⊢
  have last : 'F'.val.toNat ≤ 'Z'.val.toNat := by decide
  omega

theorem mem_toDigits {base value : Nat} (low : 1 < base) {c : Char}
    (member : c ∈ Nat.toDigits base value) : ∃ digit < base, c = Nat.digitChar digit := by
  induction value using Nat.strongRecOn with
  | ind value induction =>
      rw [Nat.toDigits_eq_if low] at member
      by_cases small : value < base
      · rw [if_pos small, List.mem_singleton] at member
        exact ⟨value, small, member⟩
      · have smaller : value / base < value := Nat.div_lt_self (by omega) low
        rw [if_neg small, List.mem_append, List.mem_singleton] at member
        rcases member with earlier | last
        · exact induction (value / base) smaller earlier
        · exact ⟨value % base, Nat.mod_lt value (by omega), last⟩

theorem numeral_natCast (base width value : Nat) :
    numeral base width value =
      List.replicate (width - (Nat.toDigits base value).length) '0' ++
        Nat.toDigits base value := by
  have sign : signOf (value : Int) = [] := if_neg (by omega)
  simp [numeral, sign]

theorem mem_numeral {base width value : Nat} (low : 1 < base) {c : Char}
    (member : c ∈ numeral base width value) : ∃ digit < base, c = Nat.digitChar digit := by
  rw [numeral_natCast, List.mem_append] at member
  rcases member with zero | digit
  · exact ⟨0, by omega, List.eq_of_mem_replicate zero⟩
  · exact mem_toDigits low digit

theorem length_numeral {base width value : Nat} (low : 1 < base) (positive : 0 < width)
    (small : value < base ^ width) : (numeral base width value).length = width := by
  have fits := (Nat.length_toDigits_le_iff low positive).mpr small
  rw [numeral_natCast, List.length_append, List.length_replicate]
  omega

theorem numberOf_numeral {base : Nat} (low : 1 < base) (high : base ≤ 16)
    (width value : Nat) : Token.numberOf base (numeral base width value) = value := by
  rw [numeral_natCast, Token.numberOf_append, Token.numberOf_zeros, Nat.zero_mul, Nat.zero_add,
    Token.numberOf_toDigits low high]

section Hexadecimal

variable {width value : Nat}

theorem length_hexUpper (positive : 0 < width) (small : value < 16 ^ width) :
    (hexUpper width value).toList.length = width := by
  rw [hexUpper, String.toList_ofList, List.length_map, length_numeral (by decide) positive small]

theorem isPrintedDigit_hexUpper (width value : Nat) :
    ∀ c ∈ (hexUpper width value).toList, isPrintedDigit c = true := by
  intro c member
  rw [hexUpper, String.toList_ofList] at member
  obtain ⟨digit, printed, rfl⟩ := List.mem_map.mp member
  obtain ⟨number, small, rfl⟩ := mem_numeral (by decide) printed
  interval_cases number <;> decide

theorem numberOf_hexUpper (width value : Nat) :
    Token.numberOf 16 (hexUpper width value).toList = value := by
  have same : ((numeral 16 width value).map Char.toUpper).map Token.digitOf =
      (numeral 16 width value).map Token.digitOf := by
    rw [List.map_map]
    apply List.map_congr_left
    intro c member
    obtain ⟨digit, small, rfl⟩ := mem_numeral (by decide) member
    obtain ⟨lower, upper⟩ := Token.digitOf_digitChar small
    exact upper.trans lower.symm
  rw [hexUpper, String.toList_ofList, Token.numberOf, same]
  exact numberOf_numeral (by decide) (by decide) width value

theorem hexUpper_digit (small : value < 16) :
    ∃ digit, (hexUpper 0 value).toList = [digit] ∧ isPrintedDigit digit = true := by
  have single : (hexUpper 0 value).toList = [(Nat.digitChar value).toUpper] := by
    rw [hexUpper, String.toList_ofList, numeral_natCast, Nat.toDigits_eq_if (by decide),
      if_pos small]
    rfl
  have printed := isPrintedDigit_hexUpper 0 value
  rw [single] at printed
  exact ⟨_, single, printed _ List.mem_cons_self⟩

/-- The columns of an address or a word: four digits that denote it. -/
structure IsFourPlaces (value : Int) (digits : List Char) : Prop where
  length : digits.length = 4
  printed : ∀ c ∈ digits, isPrintedDigit c = true
  denoted : (Token.numberOf 16 digits : Int) = value

theorem isFourPlaces_hexUpper {value : Int} (low : 0 ≤ value) (high : value ≤ 0xFFFF) :
    IsFourPlaces value (hexUpper 4 value).toList := by
  obtain ⟨natural, rfl⟩ := Int.eq_ofNat_of_zero_le low
  have small : natural < 16 ^ 4 := by omega
  refine ⟨length_hexUpper (by decide) small, isPrintedDigit_hexUpper 4 natural, ?_⟩
  rw [numberOf_hexUpper]

theorem isFourPlaces_word {word : Nat} (small : word < 0x10000) :
    IsFourPlaces word (hexUpper 4 word).toList :=
  isFourPlaces_hexUpper (by omega) (by omega)

end Hexadecimal

section Blanks

variable {test : Char → Bool}

/-- What is dropped at the end of a text. -/
theorem exists_dropEndWhile (test : Char → Bool) (text : List Char) :
    ∃ dropped, text = dropEndWhile test text ++ dropped ∧ ∀ c ∈ dropped, test c = true :=
  ⟨text.rtakeWhile test, List.rdropWhile_append_rtakeWhile.symm,
    fun _ member => List.mem_rtakeWhile_imp member⟩

theorem dropEndWhile_append {first second : List Char}
    (dropped : ∀ c ∈ second, test c = true) :
    dropEndWhile test (first ++ second) = dropEndWhile test first := by
  induction second using List.reverseRecOn with
  | nil => rw [List.append_nil]
  | append_singleton second last induction =>
      have step := List.rdropWhile_concat_pos test (first ++ second) last
        (dropped last (by simp))
      rw [← List.append_assoc]
      exact step.trans (induction fun c member => dropped c (by simp [member]))

/-- A character that is not dropped keeps everything before it. -/
theorem dropEndWhile_append_cons {stop : Char} (kept : test stop = false)
    (first second : List Char) :
    dropEndWhile test (first ++ stop :: second) =
      first ++ stop :: dropEndWhile test second := by
  induction second using List.reverseRecOn with
  | nil => exact List.rdropWhile_concat_neg test first stop (by simp [kept])
  | append_singleton second last induction =>
      have moved : first ++ stop :: (second ++ [last]) = (first ++ stop :: second) ++ [last] := by
        simp
      rw [moved]
      by_cases drops : test last = true
      · have shorter : dropEndWhile test (second ++ [last]) = dropEndWhile test second :=
          List.rdropWhile_concat_pos test second last drops
        rw [shorter, ← induction]
        exact List.rdropWhile_concat_pos test (first ++ stop :: second) last drops
      · have whole : dropEndWhile test (second ++ [last]) = second ++ [last] :=
          List.rdropWhile_concat_neg test second last drops
        rw [whole, ← moved.symm]
        exact List.rdropWhile_concat_neg test (first ++ stop :: second) last drops

theorem dropEndWhile_eq_self {text : List Char} (kept : ∀ c ∈ text, test c = false) :
    dropEndWhile test text = text := by
  apply (List.rdropWhile_eq_self_iff).mpr
  intro nonempty
  simp [kept _ (List.getLast_mem nonempty)]

theorem trimEnd_padEnd {text : List Char} (filled : ∀ c ∈ text, isBlank c = false)
    (width : Nat) : trimEnd (padEnd width text) = text := by
  have blanks : ∀ c ∈ List.replicate (width - text.length) ' ', isBlank c = true := by
    intro c member
    rw [List.eq_of_mem_replicate member]
    decide
  rw [trimEnd, padEnd, dropEndWhile_append blanks, dropEndWhile_eq_self filled]

end Blanks

/-- A character of a joined text stands in a piece or in the separator. -/
theorem mem_intercalate {separator : List Char} {pieces : List (List Char)} {c : Char}
    (member : c ∈ separator.intercalate pieces) :
    c ∈ separator ∨ ∃ piece ∈ pieces, c ∈ piece := by
  induction pieces with
  | nil => simp at member
  | cons first others induction =>
      cases others with
      | nil =>
          rw [List.intercalate_singleton] at member
          exact .inr ⟨first, List.mem_cons_self, member⟩
      | cons second others =>
          rw [List.intercalate_cons_cons, List.mem_append, List.mem_append] at member
          rcases member with (here | between) | later
          · exact .inr ⟨first, List.mem_cons_self, here⟩
          · exact .inl between
          · rcases induction later with between | ⟨piece, isPiece, inside⟩
            · exact .inl between
            · exact .inr ⟨piece, List.mem_cons_of_mem _ isPiece, inside⟩

end Text

end Lc3Assembler
