import Lc3Assembler.Encoding
import Lc3Assembler.Proofs.BitFields
import Lc3Assembler.Proofs.Numerals

/-!
# The range of a bit field

A field accepts a value exactly if the value comes back out of the bits it is packed into: by
sign extension if it is written in decimal, by zero extension if it is not, and from the page
of the next instruction if the field is an address.  The hint for a value that is refused
names the two ends of what the field accepts.
-/

namespace Lc3Assembler

namespace FieldRange

/-- A field of so many bits takes a value that is written in some base. -/
def Accepts (bits : Nat) (base : Option Base) (value : Int) : Prop :=
  ∃ range, of? bits base = some range ∧ range.contains value = true

/-- A bound as a hint writes it: in hexadecimal behind an `x`, or in decimal. -/
inductive IsBound : String → Int → Prop where
  | hexadecimal {digits : String} {number : Nat}
      (numeral : Text.IsNumeral 16 digits.toList number) : IsBound ("x" ++ digits) number
  | decimal {digits : String} {number : Nat}
      (numeral : Text.IsNumeral 10 digits.toList number) : IsBound digits number
  | negative {digits : String} {number : Nat}
      (numeral : Text.IsNumeral 10 digits.toList number) : IsBound ("-" ++ digits) (-number)

/-- A hint ends with the least and the greatest value of a range. -/
def NamesEnds (hint : String) (range : FieldRange) : Prop :=
  ∃ subject low high, hint = subject ++ " must be in " ++ low ++ ".." ++ high ∧
    IsBound low range.low ∧ IsBound high range.high

/-- The range of a field of so many bits is neither too wide nor too narrow for the values that
are written in a base. -/
structure Tight (bits : Nat) (base : Option Base) : Prop where
  packed : ∀ (slot : Slot) (value : Int), slot.width = bits →
    slot.mask? = some (2 ^ bits - 1) ∧
      (lowBits bits value : Int) = Int.land value (2 ^ bits - 1) ∧
      slot.read (slot.pack value) = lowBits bits value
  signed : bits ≠ 9 → base = some .decimal →
    (∀ value, Accepts bits base value ↔
        (BitVec.ofNat (bits - 1) (lowBits bits value)).toInt = value) ∧
      ∀ pattern : BitVec (bits - 1), Accepts bits base pattern.toInt
  unsigned : bits ≠ 9 → base ≠ some .decimal →
    (∀ value, Accepts bits base value ↔
        ((BitVec.ofNat (bits - 1) (lowBits bits value)).toNat : Int) = value) ∧
      ∀ pattern : BitVec (bits - 1), Accepts bits base pattern.toNat
  topClear : bits ≠ 9 → base ≠ some .decimal → ∀ value, Accepts bits base value →
    (lowBits bits value).testBit (bits - 1) = false
  address : bits = 9 → ∀ value, Accepts bits base value ↔ 0 ≤ value ∧ value ≤ 0xFFFF
  page : bits = 9 → ∀ location value, pageOf (location + 1) = pageOf value →
    (lowBits bits value : Int) = value % 512 ∧
      pageOf (location + 1) * 512 + value % 512 = value
  ends : ∃ range, of? bits base = some range ∧ range.low ≤ range.high ∧
    (∀ value, Accepts bits base value ↔ range.low ≤ value ∧ value ≤ range.high) ∧
    NamesEnds (hint bits base) range
  refusals : ∀ line operand value (slot : Slot) failure, slot.width = bits →
    operand.form.base? = base →
    Program.checkRange line operand value slot = .error failure →
      ¬Accepts bits base value ∧
        ∃ cause hint range, failure = .reject line cause ∧ cause.hint? = some hint ∧
          of? bits base = some range ∧ NamesEnds hint range

/-! ### What a field accepts -/

theorem natCast_ne_addressWidth {bits : Nat} (narrow : bits ≠ 9) :
    (bits : Int) ≠ addressWidth := by
  unfold addressWidth
  omega

theorem accepts_iff {bits : Nat} {base : Option Base} {range : FieldRange}
    (found : of? bits base = some range) (value : Int) :
    Accepts bits base value ↔ range.low ≤ value ∧ value ≤ range.high := by
  simp [Accepts, found, contains]

theorem accepts_address_iff (base : Option Base) (value : Int) :
    Accepts 9 base value ↔ 0 ≤ value ∧ value ≤ 0xFFFF := by
  have found : of? (9 : Nat) base = some { low := 0, high := 0xFFFF } := rfl
  exact accepts_iff found value

section Narrow

variable {bits : Nat} {base : Option Base} (wide : 2 ≤ bits) (narrow : bits ≠ 9)

include wide narrow

theorem accepts_signed_iff (value : Int) :
    Accepts bits (some .decimal) value ↔
      -2 ^ (bits - 2) ≤ value ∧ value < 2 ^ (bits - 2) := by
  have count : (bits : Int) = (bits - 2 : Nat) + 2 := by omega
  rw [accepts_iff (of?_eq_signed (natCast_ne_addressWidth narrow) count)]
  exact and_congr_right fun _ => Int.le_sub_one_iff

theorem accepts_unsigned_iff (unsigned : base ≠ some .decimal) (value : Int) :
    Accepts bits base value ↔ 0 ≤ value ∧ value < 2 ^ (bits - 1) := by
  have count : (bits : Int) = (bits - 1 : Nat) + 1 := by omega
  rw [accepts_iff (of?_eq_unsigned (natCast_ne_addressWidth narrow) count unsigned)]
  exact and_congr_right fun _ => Int.le_sub_one_iff

/-- Every signed number of one bit less is accepted. -/
theorem accepts_toInt (pattern : BitVec (bits - 1)) :
    Accepts bits (some .decimal) pattern.toInt :=
  (accepts_signed_iff wide narrow _).mpr ⟨BitVec.le_toInt pattern, BitVec.toInt_lt⟩

theorem accepts_toNat (unsigned : base ≠ some .decimal) (pattern : BitVec (bits - 1)) :
    Accepts bits base pattern.toNat := by
  have bounded : (pattern.toNat : Int) < 2 ^ (bits - 1) := by exact_mod_cast pattern.isLt
  exact (accepts_unsigned_iff wide narrow unsigned _).mpr ⟨Int.natCast_nonneg _, bounded⟩

/-- A decimal value is accepted exactly if it is the sign extension of its bits. -/
theorem accepts_iff_toInt (value : Int) :
    Accepts bits (some .decimal) value ↔
      (BitVec.ofNat (bits - 1) (lowBits bits value)).toInt = value := by
  constructor
  · intro accepted
    obtain ⟨low, high⟩ := (accepts_signed_iff wide narrow value).mp accepted
    -- One of the bits that are kept is the sign, so that two bits less are left for the size.
    obtain ⟨rest, rfl⟩ := Nat.exists_eq_add_of_le' wide
    exact toInt_ofNat_of_emod (natCast_lowBits_mod value (Nat.le_succ _)) low high
  · intro recovered
    rw [← recovered]
    exact accepts_toInt wide narrow _

/-- Any other value is accepted exactly if it is the zero extension of its bits. -/
theorem accepts_iff_toNat (unsigned : base ≠ some .decimal) (value : Int) :
    Accepts bits base value ↔
      ((BitVec.ofNat (bits - 1) (lowBits bits value)).toNat : Int) = value := by
  constructor
  · intro accepted
    obtain ⟨low, high⟩ := (accepts_unsigned_iff wide narrow unsigned value).mp accepted
    rw [BitVec.toNat_ofNat, natCast_lowBits_mod value (Nat.sub_le bits 1)]
    exact Int.emod_eq_of_lt low high
  · intro recovered
    rw [← recovered]
    exact accepts_toNat wide narrow unsigned _

theorem testBit_of_accepts {value : Int} (unsigned : base ≠ some .decimal)
    (accepted : Accepts bits base value) : (lowBits bits value).testBit (bits - 1) = false := by
  obtain ⟨low, high⟩ := (accepts_unsigned_iff wide narrow unsigned value).mp accepted
  have inside : (2 : Int) ^ (bits - 1) ≤ 2 ^ bits :=
    pow_le_pow_right₀ (by decide) (Nat.sub_le bits 1)
  have same : (lowBits bits value : Int) = value :=
    lowBits_of_fits low (Int.lt_of_lt_of_le high inside)
  rw [← same] at high
  apply Nat.testBit_lt_two_pow
  exact_mod_cast high

end Narrow

/-! ### Hints -/

theorem isBound_decimal (value : Int) : IsBound (Text.decimal value) value := by
  rcases Int.lt_or_le value 0 with negative | natural
  · obtain ⟨number, rfl⟩ := Int.exists_eq_neg_ofNat (Int.le_of_lt negative)
    have written : Text.decimal (-number) = "-" ++ String.ofList (Nat.toDigits 10 number) := by
      rw [← String.toList_inj, Text.toList_decimal_neg (by omega)]
      simp
    rw [written]
    apply IsBound.negative
    rw [String.toList_ofList]
    exact Text.isNumeral_toDigits (by decide) (by decide) number
  · obtain ⟨number, rfl⟩ := Int.eq_ofNat_of_zero_le natural
    apply IsBound.decimal
    rw [Text.toList_decimal_natCast]
    exact Text.isNumeral_toDigits (by decide) (by decide) number

theorem isBound_hexUpper {value : Int} (natural : 0 ≤ value) (width : Nat) :
    IsBound ("x" ++ Text.hexUpper width value) value := by
  obtain ⟨number, rfl⟩ := Int.eq_ofNat_of_zero_le natural
  exact .hexadecimal (Text.isNumeral_hexUpper width number)

/-- The constant text names the ends of the address space. -/
theorem namesEnds_address (base : Option Base) :
    NamesEnds (hint (9 : Nat) base) { low := 0, high := 0xFFFF } := by
  have text : hint (9 : Nat) base =
      "address operands" ++ " must be in " ++ ("x" ++ Text.hexUpper 4 0) ++ ".."
        ++ ("x" ++ Text.hexUpper 4 0xFFFF) := by
    have address : ((9 : Nat) : Int) = addressWidth := rfl
    simp only [hint, address, if_true]
    decide +kernel
  exact ⟨_, _, _, text, isBound_hexUpper (by decide) 4, isBound_hexUpper (by decide) 4⟩

/-- The offset that is taken from both ends of an unsigned range makes it the signed one. -/
theorem namesEnds_signed {bits rest : Nat} (narrow : bits ≠ 9)
    (count : (bits : Int) = (rest : Nat) + 2) :
    NamesEnds (hint bits (some .decimal)) { low := -2 ^ rest, high := 2 ^ rest - 1 } := by
  have other := natCast_ne_addressWidth narrow
  have half : ((bits : Int) - 1 - 1).toNat = rest := by omega
  have whole : ((bits : Int) - 1).toNat = rest + 1 := by omega
  have upper : (2 : Int) ^ (rest + 1) - 1 - 2 ^ rest = 2 ^ rest - 1 := by
    rw [pow_succ]
    ring
  have words : "-bit field must be in " = "-bit field" ++ " must be in " := rfl
  refine ⟨"decimal operands in a " ++ Text.decimal bits ++ "-bit field", _, _, ?_,
    isBound_decimal _, isBound_decimal _⟩
  simp only [hint, other, if_false, half, whole, intPow_eq, upper, Int.zero_sub, words,
    String.append_assoc]

theorem namesEnds_unsigned {bits rest : Nat} {base : Option Base} (narrow : bits ≠ 9)
    (count : (bits : Int) = (rest : Nat) + 1) (unsigned : base ≠ some .decimal) :
    NamesEnds (hint bits base) { low := 0, high := 2 ^ rest - 1 } := by
  have other := natCast_ne_addressWidth narrow
  have whole : ((bits : Int) - 1).toNat = rest := by omega
  have positive : (0 : Int) < 2 ^ rest := Int.pow_pos (by decide)
  have words : "-bit field must be in x0..x" =
      "-bit field" ++ " must be in " ++ "x" ++ "0" ++ ".." ++ "x" := rfl
  have zero : Text.hexUpper 0 0 = "0" := by decide +kernel
  have low := isBound_hexUpper (Int.le_refl 0) 0
  rw [zero] at low
  refine ⟨"operands in a " ++ Text.decimal bits ++ "-bit field", _, _, ?_, low,
    isBound_hexUpper (Int.le_sub_one_of_lt positive) 0⟩
  cases base with
  | none => simp only [hint, other, if_false, whole, intPow_eq, words, String.append_assoc]
  | some written =>
      cases written with
      | hexadecimal =>
          simp only [hint, other, if_false, whole, intPow_eq, words, String.append_assoc]
      | decimal => exact absurd rfl unsigned

/-- Every field of two bits or more has a range, and its hint names the ends. -/
theorem exists_ends {bits : Nat} (wide : 2 ≤ bits) (base : Option Base) :
    ∃ range, of? bits base = some range ∧ range.low ≤ range.high ∧
      NamesEnds (hint bits base) range := by
  by_cases address : bits = 9
  · subst address
    exact ⟨_, rfl, by decide, namesEnds_address base⟩
  · have other := natCast_ne_addressWidth address
    by_cases decimal : base = some .decimal
    · subst decimal
      have count : (bits : Int) = (bits - 2 : Nat) + 2 := by omega
      have positive : (0 : Int) < 2 ^ (bits - 2) := Int.pow_pos (by decide)
      refine ⟨_, of?_eq_signed other count, ?_, namesEnds_signed address count⟩
      change -(2 : Int) ^ (bits - 2) ≤ 2 ^ (bits - 2) - 1
      omega
    · have count : (bits : Int) = (bits - 1 : Nat) + 1 := by omega
      have positive : (0 : Int) < 2 ^ (bits - 1) := Int.pow_pos (by decide)
      have high : (0 : Int) ≤ 2 ^ (bits - 1) - 1 := Int.le_sub_one_of_lt positive
      exact ⟨_, of?_eq_unsigned other count decimal, high,
        namesEnds_unsigned address count decimal⟩

/-- A value is refused with the hint of the range that it misses. -/
theorem hint_of_checkRange {line value : Int} {operand : Operand} {slot : Slot}
    {failure : Failure} {range : FieldRange}
    (found : of? slot.width operand.form.base? = some range)
    (refused : Program.checkRange line operand value slot = .error failure) :
    range.contains value = false ∧
      ∃ cause, failure = .reject line cause ∧
        cause.hint? = some (hint slot.width operand.form.base?) := by
  have missed {cause : Cause}
      (checked : (if range.contains value then .ok () else .error (.reject line cause)) =
        (.error failure : Except Failure Unit)) :
      range.contains value = false ∧ failure = .reject line cause := by
    cases inside : range.contains value with
    | true =>
        rw [inside] at checked
        cases checked
    | false =>
        rw [inside] at checked
        cases checked
        exact ⟨rfl, rfl⟩
  unfold Program.checkRange at refused
  cases form : operand.form with
  | immediate base number =>
      simp only [form, Form.base?] at found
      simp only [form, found] at refused
      obtain ⟨outside, rfl⟩ := missed refused
      exact ⟨outside, _, rfl, rfl⟩
  | symbol =>
      simp only [form, Form.base?] at found
      simp only [form, found] at refused
      obtain ⟨outside, rfl⟩ := missed refused
      exact ⟨outside, _, rfl, rfl⟩
  | _ => simp [form] at refused

/-- A field of two bits or more accepts exactly the values that it keeps, and the hint for any
other value says which these are. -/
theorem of?_tight {bits : Nat} (wide : 2 ≤ bits) (base : Option Base) : Tight bits base := by
  obtain ⟨range, found, ordered, named⟩ := exists_ends wide base
  constructor
  · intro slot value width
    refine ⟨?_, natCast_lowBits_eq_land bits value, ?_⟩
    · rw [Slot.mask?, width, if_neg (by omega), Int.toNat_natCast, intPow_eq]
    · rw [Slot.read_pack, width]
  · rintro narrow rfl
    exact ⟨accepts_iff_toInt wide narrow, accepts_toInt wide narrow⟩
  · intro narrow unsigned
    exact ⟨accepts_iff_toNat wide narrow unsigned, accepts_toNat wide narrow unsigned⟩
  · intro narrow unsigned value accepted
    exact testBit_of_accepts wide narrow unsigned accepted
  · rintro rfl value
    exact accepts_address_iff base value
  · rintro rfl location value same
    rw [same]
    exact ⟨natCast_lowBits 9 value, Int.ediv_mul_add_emod value 512⟩
  · exact ⟨range, found, ordered, accepts_iff found, named⟩
  · rintro line operand value slot failure width rfl refused
    rw [← width] at found
    obtain ⟨outside, cause, rejected, hint⟩ := hint_of_checkRange found refused
    rw [width] at found hint
    refine ⟨?_, cause, _, range, rejected, hint, found, named⟩
    rintro ⟨other, same, inside⟩
    rw [found] at same
    cases same
    rw [outside] at inside
    cases inside

/-- The least decimal value that a field of six bits takes. -/
theorem leastIndex_recovered :
    2 ≤ 6 ∧ Accepts 6 (some .decimal) (-16) ∧
      (BitVec.ofNat (6 - 1) (lowBits (6 : Nat) (-16))).toInt = -16 := by
  have accepted : Accepts 6 (some .decimal) (-16) := ⟨_, rfl, by decide⟩
  have tight : Tight 6 (some .decimal) := of?_tight (by decide) (some .decimal)
  exact ⟨by decide, accepted, ((tight.signed (by decide) rfl).1 (-16)).mp accepted⟩

end FieldRange

end Lc3Assembler
