import Mathlib
import Lc3Assembler.Operation.Mnemonic

/-!
# Fields of instruction words

`Slot.read` takes the contents of a slot out of a word.  The slots of an
instruction stand one above the other, with the template above the first of
them, so packing an operand changes neither the fields that are packed already
nor the opcode.
-/

namespace Lc3Assembler

/-- A value that fits some bits as a signed number is what they say. -/
theorem toInt_ofNat_of_emod {bits word : Nat} {value : Int}
    (same : ((word % 2 ^ (bits + 1) : Nat) : Int) = value % 2 ^ (bits + 1))
    (low : -2 ^ bits ≤ value) (high : value < 2 ^ bits) :
    (BitVec.ofNat (bits + 1) word).toInt = value := by
  have modulus : ((2 ^ (bits + 1) : Nat) : Int) = 2 ^ bits * 2 := by
    rw [Nat.pow_succ]
    push_cast
    rfl
  have agree : (word : Int).bmod (2 ^ (bits + 1)) = value.bmod (2 ^ (bits + 1)) := by
    rw [← Int.emod_bmod (word : Int), ← Int.emod_bmod value]
    push_cast at same ⊢
    rw [same]
  rw [BitVec.toInt_ofNat', agree]
  apply Int.bmod_eq_of_le
  · omega
  · omega

theorem lowBits_eq (width value : Int) :
    lowBits width value = (value % 2 ^ width.toNat).toNat := rfl

theorem natCast_lowBits (width value : Int) :
    (lowBits width value : Int) = value % 2 ^ width.toNat := by
  have nonnegative : 0 ≤ value % 2 ^ width.toNat :=
    Int.emod_nonneg value (Int.ne_of_gt (Int.pow_pos (by decide)))
  rw [lowBits_eq, Int.toNat_of_nonneg nonnegative]

theorem lowBits_lt (width value : Int) : lowBits width value < 2 ^ width.toNat := by
  have bounded : value % 2 ^ width.toNat < 2 ^ width.toNat :=
    Int.emod_lt_of_pos value (Int.pow_pos (by decide))
  rw [← natCast_lowBits] at bounded
  exact_mod_cast bounded

theorem lowBits_add (width value address : Int) :
    (lowBits width (value + address) : Int) =
      ((lowBits width value : Int) + address) % 2 ^ width.toNat := by
  rw [natCast_lowBits, natCast_lowBits, Int.emod_add_emod]

theorem lowBits_of_fits {width value : Int} (low : 0 ≤ value) (high : value < 2 ^ width.toNat) :
    (lowBits width value : Int) = value := by
  rw [natCast_lowBits, Int.emod_eq_of_lt low high]

theorem natCast_lowBits_mod {bits : Nat} {width : Int} (value : Int)
    (smaller : bits ≤ width.toNat) :
    ((lowBits width value % 2 ^ bits : Nat) : Int) = value % 2 ^ bits := by
  rw [Int.natCast_emod, natCast_lowBits]
  push_cast
  apply Int.emod_emod_of_dvd
  exact ⟨2 ^ (width.toNat - bits), by rw [← Int.pow_add, Nat.add_sub_cancel' smaller]⟩

/-- The lowest bits of a value are what a mask of as many ones leaves of it. -/
theorem natCast_lowBits_eq_land (bits : Nat) (value : Int) :
    (lowBits bits value : Int) = Int.land value (2 ^ bits - 1) := by
  have mask : (2 ^ bits - 1 : Int) = ((2 ^ bits - 1 : Nat) : Int) := by
    rw [Nat.cast_sub Nat.one_le_two_pow]
    push_cast
    rfl
  rw [natCast_lowBits, mask, Int.toNat_natCast]
  cases value with
  | ofNat number =>
      have masked : Int.land (Int.ofNat number) ((2 ^ bits - 1 : Nat) : Int) =
          ((number &&& 2 ^ bits - 1 : Nat) : Int) := rfl
      rw [masked, Nat.and_two_pow_sub_one_eq_mod, Int.ofNat_eq_natCast]
      push_cast
      rfl
  | negSucc number =>
      have masked : Int.land (Int.negSucc number) ((2 ^ bits - 1 : Nat) : Int) =
          (Nat.ldiff (2 ^ bits - 1) number : Int) := rfl
      have small : number % 2 ^ bits < 2 ^ bits := Nat.mod_lt _ (Nat.two_pow_pos bits)
      have flipped : Nat.ldiff (2 ^ bits - 1) number = 2 ^ bits - (number % 2 ^ bits + 1) := by
        apply Nat.eq_of_testBit_eq
        intro place
        rw [Nat.testBit_ldiff, Nat.testBit_two_pow_sub_succ small, Nat.testBit_two_pow_sub_one,
          Nat.testBit_mod_two_pow]
        cases decide (place < bits) <;> rfl
      rw [masked, flipped, Int.negSucc_emod number (Int.pow_pos (by decide)),
        Nat.cast_sub (Nat.succ_le_of_lt small)]
      push_cast
      ring

theorem intPow_eq (base : Int) (exponent : Nat) : base.pow exponent = base ^ exponent := rfl

namespace FieldRange

/-- The range of a decimal value: signed in all bits but the top one. -/
theorem of?_eq_signed {width : Int} {bits : Nat} (narrow : width ≠ addressWidth)
    (count : width = bits + 2) :
    of? width (some .decimal) = some { low := -2 ^ bits, high := 2 ^ bits - 1 } := by
  have half : (width - 2).toNat = bits := by omega
  have whole : (width - 1).toNat = bits + 1 := by omega
  have positive : ¬ width < 1 := by omega
  have signed : ¬ width < 2 := by omega
  have upper : (2 : Int) ^ (bits + 1) - 1 - 2 ^ bits = 2 ^ bits - 1 := by
    rw [pow_succ]
    ring
  simp only [of?, narrow, positive, signed, if_false, half, whole, intPow_eq, upper]

/-- The range of any other value: all bits but the top one. -/
theorem of?_eq_unsigned {width : Int} {bits : Nat} {base : Option Base}
    (narrow : width ≠ addressWidth) (count : width = bits + 1) (unsigned : base ≠ some .decimal) :
    of? width base = some { low := 0, high := 2 ^ bits - 1 } := by
  have whole : (width - 1).toNat = bits := by omega
  have positive : ¬ width < 1 := by omega
  cases base with
  | none => simp only [of?, narrow, positive, if_false, whole, intPow_eq]
  | some written =>
      cases written with
      | hexadecimal => simp only [of?, narrow, positive, if_false, whole, intPow_eq]
      | decimal => exact absurd rfl unsigned

theorem of?_decimal {width value : Int} {bits : Nat} {range : FieldRange}
    (narrow : width ≠ addressWidth) (count : width = bits + 2)
    (found : of? width (some .decimal) = some range) (inside : range.contains value = true) :
    -2 ^ bits ≤ value ∧ value < 2 ^ bits := by
  rw [of?_eq_signed narrow count, Option.some.injEq] at found
  subst found
  simp only [contains, Bool.and_eq_true, decide_eq_true_eq] at inside
  exact ⟨inside.1, Int.lt_of_le_sub_one inside.2⟩

theorem of?_unsigned {width value : Int} {bits : Nat} {base : Option Base} {range : FieldRange}
    (narrow : width ≠ addressWidth) (count : width = bits + 1) (unsigned : base ≠ some .decimal)
    (found : of? width base = some range) (inside : range.contains value = true) :
    0 ≤ value ∧ value < 2 ^ bits := by
  rw [of?_eq_unsigned narrow count unsigned, Option.some.injEq] at found
  subst found
  simp only [contains, Bool.and_eq_true, decide_eq_true_eq] at inside
  exact ⟨inside.1, Int.lt_of_le_sub_one inside.2⟩

end FieldRange

namespace Slot

/-- The contents of a slot. -/
def read (slot : Slot) (word : Nat) : Nat :=
  word >>> slot.position.toNat % 2 ^ slot.width.toNat

/-- The first bit above a slot. -/
def top (slot : Slot) : Nat :=
  slot.position.toNat + slot.width.toNat

/-- All bits of the first slot are above those of the second. -/
def Above (first second : Slot) : Prop :=
  second.top ≤ first.position.toNat

instance (first second : Slot) : Decidable (first.Above second) :=
  inferInstanceAs (Decidable (second.top ≤ first.position.toNat))

theorem read_or (slot : Slot) (first second : Nat) :
    slot.read (first ||| second) = slot.read first ||| slot.read second := by
  simp only [read, Nat.shiftRight_or_distrib, Nat.or_mod_two_pow]

theorem read_pack (slot : Slot) (value : Int) :
    slot.read (slot.pack value) = lowBits slot.width value := by
  rw [read, pack, Nat.shiftLeft_shiftRight, Nat.mod_eq_of_lt (lowBits_lt slot.width value)]

theorem pack_shiftRight {slot : Slot} {level : Nat} (below : slot.top ≤ level) (value : Int) :
    slot.pack value >>> level = 0 := by
  rw [Nat.shiftRight_eq_div_pow, pack, Nat.shiftLeft_eq]
  apply Nat.div_eq_of_lt
  calc
    lowBits slot.width value * 2 ^ slot.position.toNat
        < 2 ^ slot.width.toNat * 2 ^ slot.position.toNat :=
      Nat.mul_lt_mul_of_pos_right (lowBits_lt slot.width value) (Nat.two_pow_pos _)
    _ = 2 ^ slot.top := by rw [top, Nat.add_comm, Nat.pow_add]
    _ ≤ 2 ^ level := Nat.pow_le_pow_right (by decide) below

theorem Above.read_pack {first second : Slot} (above : first.Above second) (value : Int) :
    second.read (first.pack value) = 0 := by
  obtain ⟨gap, distance⟩ := Nat.exists_eq_add_of_le above
  have cut : first.pack value >>> second.position.toNat =
      lowBits first.width value * 2 ^ gap * 2 ^ second.width.toNat := by
    have exponent : first.position.toNat =
        gap + second.width.toNat + second.position.toNat := by
      rw [distance, top]
      omega
    rw [Nat.shiftRight_eq_div_pow, pack, Nat.shiftLeft_eq, exponent, Nat.pow_add, Nat.pow_add,
      ← Nat.mul_assoc, ← Nat.mul_assoc, Nat.mul_div_cancel _ (Nat.two_pow_pos _)]
  rw [read, cut, Nat.mul_mod_left]

/-- A slot in the lowest bits is the remainder of the word. -/
theorem read_lowest {slot : Slot} (lowest : slot.position = 0) (word : Nat) :
    slot.read word = word % 2 ^ slot.width.toNat := by
  simp [read, lowest]

end Slot

namespace Mnemonic

/-- The first bit above all slots. -/
def top (mnemonic : Mnemonic) : Nat :=
  (mnemonic.slots.head?.map Slot.top).getD 0

theorem slots_pairwise (mnemonic : Mnemonic) : mnemonic.slots.Pairwise Slot.Above := by
  cases mnemonic <;> decide

theorem slots_below (mnemonic : Mnemonic) : ∀ slot ∈ mnemonic.slots, slot.top ≤ mnemonic.top := by
  cases mnemonic <;> decide

theorem read_template (mnemonic : Mnemonic) :
    ∀ slot ∈ mnemonic.slots, slot.read mnemonic.template = 0 := by
  cases mnemonic <;> decide

theorem top_le (mnemonic : Mnemonic) : mnemonic.top ≤ 12 := by
  cases mnemonic <;> decide

theorem template_lt (mnemonic : Mnemonic) : mnemonic.template < 0x10000 := by
  cases mnemonic <;> decide

/-- The instruction of a word: the first four bits, and where instructions
share them the condition or the link bit behind. -/
def ofWord? (word : Nat) : Option Mnemonic :=
  match word >>> 12, word >>> 9 % 8 with
  | 0, 1 => some .brp
  | 0, 2 => some .brz
  | 0, 3 => some .brzp
  | 0, 4 => some .brn
  | 0, 5 => some .brnp
  | 0, 6 => some .brnz
  | 0, 7 => some .brnzp
  | 1, _ => some .add
  | 2, _ => some .ld
  | 3, _ => some .st
  | 4, rest => some (if rest < 4 then .jmp else .jsr)
  | 5, _ => some .and
  | 6, _ => some .ldr
  | 7, _ => some .str
  | 8, _ => some .dbug
  | 9, _ => some .not
  | 10, _ => some .ldi
  | 11, _ => some .sti
  | 12, rest => some (if rest < 4 then .jmpr else .jsrr)
  | 13, _ => some .ret
  | 14, _ => some .lea
  | 15, _ => some .trap
  | _, _ => none

/-- The bits above the slots tell the instruction. -/
theorem ofWord?_of_shiftRight {mnemonic : Mnemonic} {word : Nat}
    (opcode : word >>> mnemonic.top = mnemonic.template >>> mnemonic.top) :
    ofWord? word = some mnemonic := by
  have opcodeBits : word >>> 12 = mnemonic.template >>> 12 := by
    have lower := congrArg (· >>> (12 - mnemonic.top)) opcode
    simp only [← Nat.shiftRight_add, Nat.add_sub_cancel' mnemonic.top_le] at lower
    exact lower
  -- Only where slots end at the ninth bit do the bits behind the opcode count.
  have laterBits : mnemonic.top ≤ 9 → word >>> 9 = mnemonic.template >>> 9 := by
    intro low
    have lower := congrArg (· >>> (9 - mnemonic.top)) opcode
    simp only [← Nat.shiftRight_add, Nat.add_sub_cancel' low] at lower
    exact lower
  unfold ofWord?
  rw [opcodeBits]
  cases mnemonic with
  | brn | brz | brp | brnz | brnp | brzp | brnzp | jmp | jsr | jmpr | jsrr =>
      rw [laterBits (by decide)]
      rfl
  | _ => rfl

theorem or_immediateFlag {word : Nat} (small : word < 32) :
    word ||| immediateFlag = word + 32 := by
  rw [Nat.or_comm, Nat.add_comm]
  have bound : word < 2 ^ 5 := small
  exact (Nat.shiftLeft_add_eq_or_of_lt bound 1).symm

end Mnemonic

end Lc3Assembler
