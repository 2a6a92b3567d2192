import Lc3Assembler.Text.Utf8

/-!
# Encoded text is read back

A text that is encoded and then decoded in blocks comes back whole and without a
fault, wherever the blocks cut its characters.
-/

namespace Lc3Assembler.Text.Utf8

/-- The bytes of a character, by the class of the first one, with what the decoder
asks of the others. -/
inductive Sequence (c : Char) : List UInt8 → Prop where
  | single {first : UInt8} (lead : Lead.ofByte first = .single)
      (value : Char.ofNat first.toNat = c) : Sequence c [first]
  | pair {first second : UInt8} (lead : Lead.ofByte first = .pair)
      (continued : isContinuation second = true)
      (value : joinBits (first.toNat % 32) [second] = c) : Sequence c [first, second]
  | triple {first second third low high : UInt8} (lead : Lead.ofByte first = .triple low high)
      (inRange : (low ≤ second && second ≤ high) = true)
      (continued : isContinuation third = true)
      (value : joinBits (first.toNat % 16) [second, third] = c) :
      Sequence c [first, second, third]
  | quadruple {first second third fourth low high : UInt8}
      (lead : Lead.ofByte first = .quadruple low high)
      (inRange : (low ≤ second && second ≤ high) = true)
      (continued : isContinuation third = true) (ended : isContinuation fourth = true)
      (value : joinBits (first.toNat % 8) [second, third, fourth] = c) :
      Sequence c [first, second, third, fourth]

section Bytes

variable {value second : Nat}

theorem toNat_toUInt8 (small : value < 256) : value.toUInt8.toNat = value := by
  rw [Nat.toUInt8, UInt8.toNat_ofNat']
  omega

theorem isContinuation_toUInt8 (digit : Nat) :
    isContinuation (0x80 + digit % 64).toUInt8 = true := by
  have small : 0x80 + digit % 64 < 256 := by omega
  simp only [isContinuation, UInt8.le_iff_toNat_le, toNat_toUInt8 small, Bool.and_eq_true,
    decide_eq_true_eq, UInt8.reduceToNat]
  omega

theorem inRange_toUInt8 {low high : UInt8} (above : low.toNat ≤ value)
    (below : value ≤ high.toNat) : (low ≤ value.toUInt8 && value.toUInt8 ≤ high) = true := by
  have small : value < 256 := Nat.lt_of_le_of_lt below high.toNat_lt
  simp only [UInt8.le_iff_toNat_le, toNat_toUInt8 small, above, below, decide_true, Bool.and_self]

/-- The class of a byte, in terms of its number. -/
theorem Lead.ofByte_toUInt8 (small : value < 256) :
    Lead.ofByte value.toUInt8 =
      if value < 0x80 then .single
      else if value < 0xC2 then .invalid
      else if value < 0xE0 then .pair
      else if value = 0xE0 then .triple 0xA0 0xBF
      else if value = 0xED then .triple 0x80 0x9F
      else if value < 0xF0 then .triple 0x80 0xBF
      else if value = 0xF0 then .quadruple 0x90 0xBF
      else if value = 0xF4 then .quadruple 0x80 0x8F
      else if value < 0xF4 then .quadruple 0x80 0xBF
      else .invalid := by
  simp only [Lead.ofByte, UInt8.lt_iff_toNat_lt, ← UInt8.toNat_inj, toNat_toUInt8 small,
    UInt8.reduceToNat]

/-- A first byte of three asks for a second one that is neither overlong nor a
surrogate. -/
theorem Lead.exists_triple (above : 0xE0 ≤ value) (below : value < 0xF0)
    (continues : 0x80 ≤ second) (continued : second ≤ 0xBF)
    (overlong : value = 0xE0 → 0xA0 ≤ second) (surrogate : value = 0xED → second ≤ 0x9F) :
    ∃ low high, Lead.ofByte value.toUInt8 = .triple low high ∧
      (low ≤ second.toUInt8 && second.toUInt8 ≤ high) = true := by
  rw [Lead.ofByte_toUInt8 (by omega), if_neg (by omega), if_neg (by omega), if_neg (by omega)]
  by_cases first : value = 0xE0
  · exact ⟨0xA0, 0xBF, if_pos first, inRange_toUInt8 (overlong first) continued⟩
  · rw [if_neg first]
    by_cases middle : value = 0xED
    · exact ⟨0x80, 0x9F, if_pos middle, inRange_toUInt8 continues (surrogate middle)⟩
    · rw [if_neg middle]
      exact ⟨0x80, 0xBF, if_pos below, inRange_toUInt8 continues continued⟩

/-- A first byte of four asks for a second one that is neither overlong nor past the
last plane. -/
theorem Lead.exists_quadruple (above : 0xF0 ≤ value) (below : value ≤ 0xF4)
    (continues : 0x80 ≤ second) (continued : second ≤ 0xBF)
    (overlong : value = 0xF0 → 0x90 ≤ second) (past : value = 0xF4 → second ≤ 0x8F) :
    ∃ low high, Lead.ofByte value.toUInt8 = .quadruple low high ∧
      (low ≤ second.toUInt8 && second.toUInt8 ≤ high) = true := by
  rw [Lead.ofByte_toUInt8 (by omega), if_neg (by omega), if_neg (by omega), if_neg (by omega),
    if_neg (by omega), if_neg (by omega), if_neg (by omega)]
  by_cases first : value = 0xF0
  · exact ⟨0x90, 0xBF, if_pos first, inRange_toUInt8 (overlong first) continued⟩
  · rw [if_neg first]
    by_cases last : value = 0xF4
    · exact ⟨0x80, 0x8F, if_pos last, inRange_toUInt8 continues (past last)⟩
    · rw [if_neg last]
      exact ⟨0x80, 0xBF, if_pos (by omega), inRange_toUInt8 continues continued⟩

end Bytes

/-- The bytes of an encoded character are what the decoder asks for. -/
theorem sequence_encodeChar (c : Char) : Sequence c (encodeChar c) := by
  have scalar : c.toNat < 0xD800 ∨ 0xDFFF < c.toNat ∧ c.toNat < 0x110000 := c.valid
  have value : Char.ofNat c.toNat = c := Char.ofNat_toNat c
  rw [encodeChar]
  -- One case for each length; a scalar value is no surrogate, so the second byte is in range.
  split
  · rename_i small
    refine .single ?_ ?_
    · rw [Lead.ofByte_toUInt8 (by omega), if_pos small]
    · rw [toNat_toUInt8 (by omega), value]
  split
  · refine .pair ?_ (isContinuation_toUInt8 _) ?_
    · rw [Lead.ofByte_toUInt8 (by omega), if_neg (by omega), if_neg (by omega),
        if_pos (by omega)]
    · refine Eq.trans (congrArg Char.ofNat ?_) value
      simp only [List.foldl_cons, List.foldl_nil]
      rw [toNat_toUInt8 (by omega), toNat_toUInt8 (by omega)]
      omega
  split
  · obtain ⟨low, high, lead, inRange⟩ := @Lead.exists_triple (0xE0 + c.toNat / 4096)
      (0x80 + c.toNat / 64 % 64) (by omega) (by omega) (by omega) (by omega) (by omega) (by omega)
    refine .triple lead inRange (isContinuation_toUInt8 _) ?_
    refine Eq.trans (congrArg Char.ofNat ?_) value
    simp only [List.foldl_cons, List.foldl_nil]
    rw [toNat_toUInt8 (by omega), toNat_toUInt8 (by omega), toNat_toUInt8 (by omega)]
    omega
  · obtain ⟨low, high, lead, inRange⟩ := @Lead.exists_quadruple (0xF0 + c.toNat / 262144)
      (0x80 + c.toNat / 4096 % 64) (by omega) (by omega) (by omega) (by omega) (by omega) (by omega)
    refine .quadruple lead inRange (isContinuation_toUInt8 _) (isContinuation_toUInt8 _) ?_
    refine Eq.trans (congrArg Char.ofNat ?_) value
    simp only [List.foldl_cons, List.foldl_nil]
    rw [toNat_toUInt8 (by omega), toNat_toUInt8 (by omega), toNat_toUInt8 (by omega),
      toNat_toUInt8 (by omega)]
    omega

namespace Sequence

variable {c : Char} {bytes : List UInt8} {position : Nat}

theorem ne_nil (encoded : Sequence c bytes) : bytes ≠ [] := by
  cases encoded <;> exact List.cons_ne_nil _ _

/-- The character is decoded, whatever follows it. -/
theorem decodeFrom_append (encoded : Sequence c bytes) (rest : List UInt8) :
    decodeFrom position (bytes ++ rest) =
      (decodeFrom (position + bytes.length) rest).cons c := by
  cases encoded with
  | single lead value =>
      rw [List.singleton_append, decodeFrom.eq_def]
      simp only [lead, value, List.length_singleton]
  | pair lead continued value => simp [decodeFrom, lead, continued, value]
  | triple lead inRange continued value =>
      simp only [List.cons_append, List.nil_append, decodeFrom, lead, inRange, continued, value,
        if_true, List.length_cons, List.length_nil]
  | quadruple lead inRange continued ended value =>
      simp only [List.cons_append, List.nil_append, decodeFrom, lead, inRange, continued, ended,
        value, if_true, List.length_cons, List.length_nil]

/-- The first bytes of the character alone are cut off, which is no fault. -/
theorem decodeFrom_take (encoded : Sequence c bytes) {count : Nat} (begun : 0 < count)
    (unfinished : count < bytes.length) :
    decodeFrom position (bytes.take count) = cutOff (bytes.take count) := by
  cases encoded with
  | single lead value =>
      rw [List.length_singleton] at unfinished
      omega
  | pair lead continued value =>
      obtain rfl : count = 1 := by
        simp only [List.length_cons, List.length_nil] at unfinished
        omega
      simp only [List.take_succ_cons, List.take_zero, decodeFrom, lead]
  | triple lead inRange continued value =>
      obtain rfl | rfl : count = 1 ∨ count = 2 := by
        simp only [List.length_cons, List.length_nil] at unfinished
        omega
      · simp only [List.take_succ_cons, List.take_zero, decodeFrom, lead]
      · simp only [List.take_succ_cons, List.take_zero, decodeFrom, lead, inRange, Bool.true_or,
          if_true]
  | quadruple lead inRange continued ended value =>
      obtain rfl | rfl | rfl : count = 1 ∨ count = 2 ∨ count = 3 := by
        simp only [List.length_cons, List.length_nil] at unfinished
        omega
      · simp only [List.take_succ_cons, List.take_zero, decodeFrom, lead]
      · simp only [List.take_succ_cons, List.take_zero, decodeFrom, lead, inRange, if_true]
      · simp only [List.take_succ_cons, List.take_zero, decodeFrom, lead, inRange, continued,
          if_true]

end Sequence

theorem decodeFrom_start {c : Char} {start missing : List UInt8}
    (encoded : encodeChar c = start ++ missing) (begun : start ≠ []) (unfinished : missing ≠ [])
    (position : Nat) : decodeFrom position start = cutOff start := by
  have taken : (encodeChar c).take start.length = start := by
    rw [encoded, List.take_left]
  have short : start.length < (encodeChar c).length := by
    rw [encoded, List.length_append]
    exact Nat.lt_add_of_pos_right (List.length_pos_iff.mpr unfinished)
  rw [← taken]
  exact (sequence_encodeChar c).decodeFrom_take (List.length_pos_iff.mpr begun) short

/-- What a block can leave open of a text: nothing, or the first bytes of its first
character. -/
inductive Cut : List Char → List UInt8 → Prop where
  | between (text : List Char) : Cut text []
  | inside {c : Char} {text : List Char} {start missing : List UInt8}
      (encoded : encodeChar c = start ++ missing) (begun : start ≠ [])
      (unfinished : missing ≠ []) : Cut (c :: text) start

/-- A part at the front of an encoded text holds some of its characters, and leaves
the next one open. -/
theorem exists_cut {text : List Char} {front behind : List UInt8}
    (whole : front ++ behind = encode text) :
    ∃ done left start, text = done ++ left ∧ front = encode done ++ start ∧
      start ++ behind = encode left ∧ Cut left start := by
  induction text generalizing front with
  | nil =>
      obtain ⟨rfl, rfl⟩ := List.append_eq_nil_iff.mp whole
      exact ⟨[], [], [], rfl, rfl, rfl, .between []⟩
  | cons c text induction =>
      rw [encode_cons] at whole
      rcases List.append_eq_append_iff.mp whole with
        ⟨missing, encoded, rfl⟩ | ⟨further, rfl, rest⟩
      · by_cases begun : front = []
        · subst begun
          exact ⟨[], c :: text, [], rfl, rfl, whole, .between _⟩
        · by_cases unfinished : missing = []
          · subst unfinished
            refine ⟨[c], text, [], rfl, ?_, rfl, .between _⟩
            rw [encode_cons, encoded, encode_nil, List.append_nil, List.append_nil, List.append_nil]
          · exact ⟨[], c :: text, front, rfl, rfl, whole, .inside encoded begun unfinished⟩
      · obtain ⟨done, left, start, rfl, rfl, remains, cut⟩ := induction rest.symm
        exact ⟨c :: done, left, start, rfl, by rw [encode_cons, List.append_assoc], remains, cut⟩

/-- Encoded characters are decoded, whatever follows them. -/
theorem decodeFrom_encode_append (position : Nat) (text : List Char) (rest : List UInt8) :
    decodeFrom position (encode text ++ rest) =
      { text := text ++ (decodeFrom (position + (encode text).length) rest).text
        stop := (decodeFrom (position + (encode text).length) rest).stop } := by
  induction text generalizing position with
  | nil => rfl
  | cons c text induction =>
      rw [encode_cons, List.append_assoc, (sequence_encodeChar c).decodeFrom_append, induction,
        List.length_append, Nat.add_assoc]
      rfl

/-- Blocks that hold the rest of a text are decoded to it. -/
theorem decodeBlocks_encode {carried : List UInt8} {text : List Char} (cut : Cut text carried)
    {blocks : List (List UInt8)} (whole : carried ++ blocks.flatten = encode text) :
    decodeBlocks carried blocks = { text, fault := none } := by
  -- What is carried from block to block is a cut of the text that is still to come.
  induction blocks generalizing carried text with
  | nil =>
      rw [List.flatten_nil, List.append_nil] at whole
      cases cut with
      | between =>
          cases text with
          | nil => rfl
          | cons c text =>
              have empty := (List.append_eq_nil_iff.mp whole.symm).1
              exact absurd empty (sequence_encodeChar c).ne_nil
      | inside encoded begun unfinished =>
          rw [encode_cons, encoded, List.append_assoc, List.self_eq_append_right] at whole
          exact absurd (List.append_eq_nil_iff.mp whole).1 unfinished
  | cons block blocks induction =>
      rw [List.flatten_cons, ← List.append_assoc] at whole
      obtain ⟨done, left, start, rfl, front, rest, leftOpen⟩ := exists_cut whole
      have others := induction leftOpen rest
      rw [decodeBlocks, front, decodeFrom_encode_append]
      cases leftOpen with
      | between => simp only [decodeFrom, others, List.append_nil]
      | inside encoded begun unfinished =>
          simp only [decodeFrom_start encoded begun unfinished, cutOff, others, List.append_nil]

theorem decode_encode (text : List Char) :
    decode (encode text) = { text, fault := none } :=
  decodeBlocks_encode (.between text) (flatten_blocksFrom blockSize (encode text))

end Lc3Assembler.Text.Utf8
