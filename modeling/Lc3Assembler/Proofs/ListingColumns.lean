import Lc3Assembler.Proofs.Columns
import Lc3Assembler.Proofs.Emission

/-!
# Columns of a listing

A listing line shows an address in columns 2 to 5, a word in columns 8 to 11 and
its bits in columns 13 to 28; the number of a source line stands in parentheses
from column 30 on.  Reading the words off the lines gives the words of the object
file, since every row that shows a word belongs to one object record.
-/

namespace Lc3Assembler

namespace Listing

/-- The characters in some columns of a line, counted from one. -/
def columns (first last : Nat) (line : List Char) : List Char :=
  (line.drop (first - 1)).take (last + 1 - first)

/-- The address and the word that a line shows, unless its contents are blank. -/
def shownWord? (line : String) : Option (Int × Nat) :=
  if Text.allBlank (columns 8 11 line.toList) then none
  else some (Token.numberOf 16 (columns 2 5 line.toList),
    Token.numberOf 16 (columns 8 11 line.toList))

end Listing

/-- The lines of a record: one with its number, and one of the address and
contents columns alone for every further word of a string. -/
inductive Record.ListedAs (record : Record) : List String → Prop where
  | lines {line : String} {behind : List Char} {continued : List String}
      (numbered : line.toList.drop 29 =
        '(' :: ((Text.decimalRight 4 record.line).toList ++ ')' :: behind))
      (further : (continued.length : Int) =
        if record.operation = .directive .strz then record.size - 1 else 0)
      (width : ∀ other ∈ continued, other.length = 28) :
      ListedAs record (line :: continued)

/-- The line of a literal. -/
def Literal.ListedAs (literal : Literal) (line : String) : Prop :=
  Listing.shownWord? line = some (literal.address, literal.word) ∧
    line.toList.drop 28 = " ( lit)".toList

namespace ListingRow

/-- The word that a row shows. -/
def shown? : ListingRow → Option (Int × Nat)
  | .source (.word address contents) _ => some (address, contents)
  | .source _ _ => none
  | .continuation address word => some (address, word)
  | .literal address word => some (address, word)

/-- A row whose numbers fit into their columns. -/
def Fits : ListingRow → Prop
  | .source (.word address contents) _ => (0 ≤ address ∧ address ≤ 0xFFFF) ∧ contents < 0x10000
  | .source (.reserved address) _ => 0 ≤ address ∧ address ≤ 0xFFFF
  | .source .none _ => True
  | .continuation address word => (0 ≤ address ∧ address ≤ 0xFFFF) ∧ word < 0x10000
  | .literal address word => (0 ≤ address ∧ address ≤ 0xFFFF) ∧ word < 0x10000

/-- The address and contents columns of a row. -/
def front : ListingRow → List Char
  | .source storage _ => (Listing.storageColumns storage).toList
  | .continuation address word => (Listing.wordColumns address word).toList
  | .literal address word => (Listing.wordColumns address word).toList

/-- Label, opcode and operands, as far as they are not blank. -/
def fieldsBehind (record : Record) : List Char :=
  Text.trimEnd
    (" " ++ Text.left 8 record.labelText ++ " " ++ Text.left 5 record.operation.name ++ " " ++
      Operand.joined record.operands).toList

/-- What marks the row of a literal. -/
def literalMark : List Char := " ( lit)".toList

/-- What stands behind the address and contents columns. -/
def behind : ListingRow → List Char
  | .source _ record =>
      ' ' :: '(' :: ((Text.decimalRight 4 record.line).toList ++ ')' :: fieldsBehind record)
  | .continuation _ _ => []
  | .literal _ _ => literalMark

theorem toList_text (row : ListingRow) : row.text.toList = row.front ++ row.behind := by
  cases row with
  | source storage record =>
      -- The parenthesis behind the number keeps everything before it.
      have columns : (Listing.storageColumns storage ++ Listing.sourceColumns record).toList =
          ((Listing.storageColumns storage).toList ++
            ' ' :: '(' :: (Text.decimalRight 4 record.line).toList) ++
          ')' :: (" " ++ Text.left 8 record.labelText ++ " " ++
            Text.left 5 record.operation.name ++ " " ++
            Operand.joined record.operands).toList := by
        simp [Listing.sourceColumns]
      rw [text, String.toList_ofList, columns, Text.trimEnd,
        Text.dropEndWhile_append_cons (by decide)]
      simp [front, behind, fieldsBehind, Text.trimEnd]
  | continuation address word => simp [text, front, behind]
  | literal address word => exact String.toList_append

end ListingRow

namespace Text

theorem isBinary_binary {value : Nat} (small : value < 0x10000) :
    (binary 16 value).toList.length = 16 ∧
      (∀ c ∈ (binary 16 value).toList, c = '0' ∨ c = '1') ∧
      Token.numberOf 2 (binary 16 value).toList = value := by
  simp only [binary, String.toList_ofList]
  refine ⟨length_numeral (by decide) (by decide) small, ?_,
    numberOf_numeral (by decide) (by decide) 16 value⟩
  intro c member
  obtain ⟨digit, low, rfl⟩ := mem_numeral (by decide) member
  interval_cases digit <;> decide

end Text

namespace Listing

variable {address : Int} {word : Nat}

theorem toList_wordColumns (address : Int) (word : Nat) :
    (wordColumns address word).toList =
      '(' :: ((Text.hexUpper 4 address).toList ++ ')' :: ' ' ::
        ((Text.hexUpper 4 word).toList ++ ' ' :: (Text.binary 16 word).toList)) := by
  simp [wordColumns]

theorem length_wordColumns (place : 0 ≤ address ∧ address ≤ 0xFFFF) (small : word < 0x10000) :
    (wordColumns address word).toList.length = 28 := by
  rw [toList_wordColumns]
  simp only [List.length_cons, List.length_append,
    (Text.isFourPlaces_hexUpper place.1 place.2).length, (Text.isFourPlaces_word small).length,
    (Text.isBinary_binary small).1]

end Listing

namespace ListingRow

theorem length_front {row : ListingRow} (fits : row.Fits) : row.front.length = 28 := by
  cases row with
  | source storage record =>
      cases storage with
      | none => simp [front, Listing.storageColumns, Text.left, Listing.storageWidth]
      | reserved address =>
          have places := (Text.isFourPlaces_hexUpper fits.1 fits.2).length
          simp [front, Listing.storageColumns, Text.left, Listing.storageWidth, places]
      | word address contents => exact Listing.length_wordColumns fits.1 fits.2
  | continuation address word => exact Listing.length_wordColumns fits.1 fits.2
  | literal address word => exact Listing.length_wordColumns fits.1 fits.2

/-- The number of a record stands behind its address and contents columns. -/
theorem drop_source {storage : Storage} {record : Record}
    (fits : (source storage record).Fits) :
    (source storage record).text.toList.drop 29 =
      '(' :: ((Text.decimalRight 4 record.line).toList ++ ')' :: fieldsBehind record) := by
  have width := length_front fits
  rw [toList_text, behind, ← List.singleton_append, ← List.append_assoc]
  exact List.drop_left' (by rw [List.length_append, width]; rfl)

end ListingRow

namespace Program

variable {program : Program} {record : Record} {words : List StoredWord}
  {rows : List ListingRow}

theorem Emits.shown (emits : program.Emits record words rows) :
    rows.filterMap ListingRow.shown? = words.map fun word => (word.address, word.contents) := by
  cases emits with
  | @stored first others _ _ _ _ =>
      have continued : (others.map StoredWord.continuation).filterMap ListingRow.shown? =
          others.map fun word => (word.address, word.contents) := by
        rw [List.filterMap_map]
        exact congrFun List.filterMap_eq_map others
      rw [List.filterMap_cons, List.map_cons, continued]
      rfl
  | reserved _ _ => rfl
  | silent _ => rfl

theorem Emits.fits (emits : program.Emits record words rows)
    (valid : ∀ word ∈ words, word.Valid program)
    (reserved : ∀ address ∈ record.blockAddresses, 0 ≤ address ∧ address ≤ 0xFFFE)
    (wellFormed : record.WellFormed) : ∀ row ∈ rows, row.Fits := by
  have within {word : StoredWord} (member : word ∈ words) :
      (0 ≤ word.address ∧ word.address ≤ 0xFFFF) ∧ word.contents < 0x10000 := by
    have placed := valid word member
    have below := placed.below
    exact ⟨⟨placed.nonnegative, by omega⟩, placed.bounded⟩
  cases emits with
  | @stored first others _ _ _ _ =>
      simp only [List.forall_mem_cons, List.forall_mem_map]
      exact ⟨within (by simp), fun word member => within (by simp [member])⟩
  | @reserved address operation located =>
      have sized := wellFormed.sized
      simp only [Record.Sized, operation] at sized
      have first : address ∈ record.blockAddresses := by
        simp only [Record.blockAddresses, operation, located, mem_addressesFrom]
        omega
      have inside := reserved address first
      simp only [List.forall_mem_singleton]
      exact ⟨inside.1, by omega⟩
  | silent _ => simp [ListingRow.Fits]

theorem Emits.listed (emits : program.Emits record words rows)
    (fits : ∀ row ∈ rows, row.Fits) : record.ListedAs (rows.map ListingRow.text) := by
  cases emits with
  | @stored first others single several _ _ =>
      rw [List.forall_mem_cons] at fits
      obtain ⟨firstFits, othersFit⟩ := fits
      refine .lines (ListingRow.drop_source firstFits) ?_ ?_
      · rw [List.length_map, List.length_map]
        by_cases string : record.operation = .directive .strz
        · rw [if_pos string, several string]
          omega
        · rw [if_neg string, single string]
          rfl
      · simp only [List.forall_mem_map] at othersFit ⊢
        intro word member
        have width := ListingRow.length_front (othersFit word member)
        rw [← String.length_toList, ListingRow.toList_text]
        simpa [StoredWord.continuation, ListingRow.behind] using width
  | reserved operation _ =>
      exact .lines (ListingRow.drop_source (fits _ (by simp))) (by simp [operation]) (by simp)
  | silent operation =>
      exact .lines (ListingRow.drop_source (fits _ (by simp))) (by simp [operation]) (by simp)

end Program

namespace Program

/-- The rows of records one after the other. -/
theorem emits_rows {program : Program} {records : List Record} {outputs : List Output}
    (emits : List.Forall₂
      (fun record part => program.Emits record (Output.words part) part.listing)
      records outputs)
    (valid : ∀ word ∈ outputs.flatMap Output.words, word.Valid program)
    (formed : ∀ record ∈ records, record.WellFormed ∧
      ∀ address ∈ record.blockAddresses, 0 ≤ address ∧ address ≤ 0xFFFE) :
    (∀ row ∈ outputs.flatMap Output.listing, row.Fits) ∧
      (outputs.flatMap Output.listing).filterMap ListingRow.shown? =
        (outputs.flatMap Output.words).map (fun word => (word.address, word.contents)) ∧
      List.Forall₂ Record.ListedAs records
        (outputs.map fun part => part.listing.map ListingRow.text) := by
  induction emits with
  | nil => exact ⟨by simp, rfl, .nil⟩
  | @cons record part records outputs head _ induction =>
      rw [List.flatMap_cons, List.forall_mem_append] at valid
      rw [List.forall_mem_cons] at formed
      obtain ⟨laterFit, laterShown, laterListed⟩ := induction valid.2 formed.2
      have fits := head.fits valid.1 formed.1.2 formed.1.1
      refine ⟨?_, ?_, .cons (head.listed fits) laterListed⟩
      · rw [List.flatMap_cons, List.forall_mem_append]
        exact ⟨fits, laterFit⟩
      · rw [List.flatMap_cons, List.flatMap_cons, List.filterMap_append, List.map_append,
          head.shown, laterShown]

/-- What the rows of an encoded program show. -/
structure RowsOf (program : Program) (output : Output) (outputs : List Output) : Prop where
  listing : output.listing =
    outputs.flatMap Output.listing ++ program.literals.map Literal.row
  fits : ∀ row ∈ output.listing, row.Fits
  shown : output.listing.filterMap ListingRow.shown? =
    output.words.map fun word => (word.address, word.contents)
  listed : List.Forall₂ Record.ListedAs program.records
    (outputs.map fun part => part.listing.map ListingRow.text)

theorem rowsOf_of_encode {limits : Limits} {program : Program} {output : Output}
    (assembled : program.Assembled limits) (outcome : program.encode = .ok output) :
    ∃ outputs, program.RowsOf output outputs := by
  obtain ⟨outputs, points, emission⟩ := encode_emission assembled outcome
  have layout := memoryLayout_of_encode assembled outcome
  have valid := valid_of_encode assembled outcome
  have formed : ∀ record ∈ program.records, record.WellFormed ∧
      ∀ address ∈ record.blockAddresses, 0 ≤ address ∧ address ≤ 0xFFFE := by
    intro record member
    refine ⟨assembled.wellFormed record member, ?_⟩
    intro address reserved
    have place : address ∈ output.words.map StoredWord.address ++ program.blockAddresses :=
      List.mem_append_right _ (List.mem_flatMap.mpr ⟨record, member, reserved⟩)
    have low := (mem_addressesFrom.mp (layout.partitioned.mem_iff.mp place)).1
    exact ⟨Int.le_trans assembled.nonnegative low, layout.below address place⟩
  rw [emission.words, List.forall_mem_append, List.forall_mem_map] at valid
  obtain ⟨recordsFit, recordsShown, listed⟩ := emits_rows emission.records valid.1 formed
  have literalsFit : ∀ literal ∈ program.literals, literal.row.Fits := by
    intro literal member
    have placed := valid.2 literal member
    have below := placed.below
    exact ⟨⟨placed.nonnegative, Int.le_trans below (by decide)⟩, placed.bounded⟩
  have literalsShown : (program.literals.map Literal.row).filterMap ListingRow.shown? =
      (program.literals.map Literal.stored).map fun word => (word.address, word.contents) := by
    rw [List.filterMap_map, List.map_map]
    exact congrFun List.filterMap_eq_map program.literals
  refine ⟨outputs, emission.listing, ?_, ?_, listed⟩
  · rw [emission.listing, List.forall_mem_append, List.forall_mem_map]
    exact ⟨recordsFit, literalsFit⟩
  · rw [emission.listing, emission.words, List.filterMap_append, List.map_append,
      recordsShown, literalsShown]

end Program

end Lc3Assembler
