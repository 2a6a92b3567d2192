import Lc3Assembler.Proofs.Emission
import Lc3Assembler.Proofs.Names

/-!
# Reading object files

Nothing separates the parts of an object line, so it is read by its first letter
and by columns.  `ObjectFile.read?` does so, and finds every part of a program
that was assembled again: numbers take four places and padded names six, since
every address is one of the machine and every label has at most six characters.
-/

namespace Lc3Assembler

/-- A name that other segments may use, with its value. -/
structure EntryPoint where
  name : String
  value : Nat
  relocatable : Bool
  deriving DecidableEq, Repr

/-- A word of an object file, with its tag. -/
structure TaggedWord where
  address : Int
  contents : Nat
  tag : String
  deriving DecidableEq, Repr

/-- What an object file says. -/
structure ObjectFile where
  segment : String
  firstAddress : Int
  length : Int
  entries : List EntryPoint
  externals : List String
  words : List TaggedWord
  start : Int
  deriving DecidableEq, Repr

namespace ObjectFile

/-- A number of exactly four upper-case hexadecimal digits. -/
def number? (digits : List Char) : Option Nat :=
  if digits.length = 4 ∧ digits.all Text.isPrintedDigit then some (Token.numberOf 16 digits)
  else none

/-- A name that is filled up with blanks. -/
def name (column : List Char) : String :=
  String.ofList (Text.trimEnd column)

def flag? : List Char → Option Bool
  | ['R'] => some true
  | ['A'] => some false
  | _ => none

/-- What stands behind the letter of a line. -/
def line? (letter : Char) (rest? : List Char → Option α) : List Char → Option α
  | [] => none
  | lead :: rest => if lead = letter then rest? rest else none

def header? : List Char → Option (String × Int × Int) :=
  line? 'H' fun rest => do
    let firstAddress ← number? ((rest.drop 6).take 4)
    let length ← number? (rest.drop 10)
    return (name (rest.take 6), firstAddress, length)

def entry? : List Char → Option EntryPoint :=
  line? 'N' fun rest => do
    let value ← number? ((rest.drop 6).take 4)
    let relocatable ← flag? (rest.drop 10)
    return { name := name (rest.take 6), value, relocatable }

def external? : List Char → Option String :=
  line? 'X' fun rest => some (String.ofList rest)

def word? : List Char → Option TaggedWord :=
  line? 'T' fun rest => do
    let address ← number? (rest.take 4)
    let contents ← number? ((rest.drop 4).take 4)
    return { address, contents, tag := String.ofList (rest.drop 8) }

def start? : List Char → Option Int :=
  line? 'E' fun rest => do
    let address ← number? rest
    return address

/-- The items at the front of some lines, and the lines behind them. -/
def readWhile (item? : List Char → Option α) :
    List (List Char) → List α × List (List Char)
  | [] => ([], [])
  | line :: lines =>
      match item? line with
      | none => ([], line :: lines)
      | some item =>
          let (items, rest) := readWhile item? lines
          (item :: items, rest)

/-- Take the text of an object file apart: a header, entry points, external
names, words, and an execution address, in this order. -/
def read? (text : String) : Option ObjectFile :=
  match Text.breakLines Text.isFileBreak text.toList with
  | [] => none
  | first :: others => do
      let (segment, firstAddress, length) ← header? first
      let (entries, afterEntries) := readWhile entry? others
      let (externals, afterExternals) := readWhile external? afterEntries
      let (words, afterWords) := readWhile word? afterExternals
      match afterWords with
      | [last] => do
          let start ← start? last
          return { segment, firstAddress, length, entries, externals, words, start }
      | _ => none

end ObjectFile

/-- The letter that an object line starts with. -/
def ObjectRecord.letter : ObjectRecord → Char
  | .header _ _ _ => 'H'
  | .entry _ _ _ => 'N'
  | .external _ => 'X'
  | .word _ _ _ => 'T'
  | .start _ => 'E'

/-- The characters of an object line. -/
def ObjectRecord.characters (record : ObjectRecord) : List Char :=
  record.text.toList

/-- An object record whose parts fit into their columns. -/
def ObjectRecord.Fits (program : Program) : ObjectRecord → Prop
  | .header segment firstAddress length =>
      Text.IsName 6 segment.toList ∧ (0 ≤ firstAddress ∧ firstAddress ≤ 0xFFFF) ∧
        0 ≤ length ∧ length ≤ 0xFFFF
  | .entry name value _ => Text.IsName 6 name.toList ∧ value < 0x10000
  | .external name => program.isExternal name = true
  | .word address contents relocation =>
      (0 ≤ address ∧ address ≤ 0xFFFF) ∧ contents < 0x10000 ∧ program.Declares relocation
  | .start address => 0 ≤ address ∧ address ≤ 0xFFFF

/-- What stands behind a word: nothing, a mark for the load address, or the
width of a field and the external name that fills it. -/
inductive IsTag (program : Program) : List Char → Prop where
  | fixed : IsTag program []
  | field : IsTag program ['M', '0']
  | address : IsTag program ['M', '1']
  | external {digit : Char} {name : String} (hexadecimal : Text.isPrintedDigit digit = true)
      (declared : program.isExternal name = true) :
      IsTag program ('X' :: digit :: name.toList)

/-- The form of an object line, by the letter it starts with. -/
inductive ObjectLine (program : Program) : Char → List Char → Prop where
  | header {line : List Char} (lead : line.head? = some 'H') (width : line.length = 15) :
      ObjectLine program 'H' line
  | entry {line : List Char} (lead : line.head? = some 'N') (width : line.length = 12) :
      ObjectLine program 'N' line
  | external {name : String} (declared : program.isExternal name = true) :
      ObjectLine program 'X' ('X' :: name.toList)
  | word {digits tag : List Char} (width : digits.length = 8)
      (hexadecimal : ∀ c ∈ digits, Text.isPrintedDigit c = true) (tagged : IsTag program tag) :
      ObjectLine program 'T' ('T' :: (digits ++ tag))
  | start {line : List Char} (lead : line.head? = some 'E') (width : line.length = 5) :
      ObjectLine program 'E' line

/-- The lines of an object file: a header, entry points, external names, words
and an execution address, none of them broken. -/
structure ObjectFormat (program : Program) (lines : List String) : Prop where
  sections : ∃ header entries externals words start,
    lines = header :: entries ++ externals ++ words ++ [start] ∧
      ObjectLine program 'H' header.toList ∧
      (∀ line ∈ entries, ObjectLine program 'N' line.toList) ∧
      (∀ line ∈ externals, ObjectLine program 'X' line.toList) ∧
      (∀ line ∈ words, ObjectLine program 'T' line.toList) ∧
      ObjectLine program 'E' start.toList
  unbroken : ∀ line ∈ lines, ∀ c ∈ line.toList, Text.isTextBreak c = false

namespace Text

theorem isTextBreak_of_isAlphanumeric {c : Char} (plain : isAlphanumeric c = true) :
    isTextBreak c = false :=
  isTextBreak_of_not_blank (isBlank_of_isAlphanumeric plain)

theorem length_padEnd_of_isName {most : Nat} {text : List Char} (name : IsName most text) :
    (padEnd most text).length = most := by
  rw [length_padEnd]
  exact Nat.max_eq_left name.short

theorem isTextBreak_padEnd {most : Nat} {text : List Char} (name : IsName most text) :
    ∀ c ∈ padEnd most text, isTextBreak c = false := by
  intro c member
  rcases List.mem_append.mp member with inside | space
  · exact isTextBreak_of_isAlphanumeric (name.plain c inside)
  · rw [List.eq_of_mem_replicate space]
    decide

theorem breakLines_append {line rest : List Char}
    (unbroken : ∀ c ∈ line, isFileBreak c = false) :
    breakLines isFileBreak (line ++ '\n' :: rest) = line :: breakLines isFileBreak rest := by
  induction line with
  | nil =>
      rw [List.nil_append, breakLines]
      · simp [isFileBreak]
      · intro _ impossible
        simp at impossible
  | cons c line induction =>
      have kept : isFileBreak c = false := unbroken c (by simp)
      have later := induction fun other member => unbroken other (by simp [member])
      rw [List.cons_append, breakLines]
      · rw [later, kept]
        rfl
      · intro _ same _
        rw [same] at kept
        exact absurd kept (by decide)

/-- Lines without breaks come back from the text of their file. -/
theorem breakLines_unlines {lines : List String}
    (unbroken : ∀ line ∈ lines, ∀ c ∈ line.toList, isFileBreak c = false) :
    breakLines isFileBreak (unlines lines).toList = lines.map String.toList := by
  induction lines with
  | nil => rfl
  | cons line lines induction =>
      have text : (unlines (line :: lines)).toList =
          line.toList ++ '\n' :: (unlines lines).toList := by
        simp [unlines, String.toList_join]
      rw [text, breakLines_append (unbroken line (by simp)),
        induction fun other member => unbroken other (by simp [member]), List.map_cons]

end Text

namespace ObjectRecord

open Text

theorem head?_characters (record : ObjectRecord) :
    record.characters.head? = some record.letter := by
  cases record <;> simp [characters, text, letter]

theorem characters_header (segment : String) (firstAddress length : Int) :
    (header segment firstAddress length).characters =
      'H' :: (padEnd 6 segment.toList ++
        ((hexUpper 4 firstAddress).toList ++ (hexUpper 4 length).toList)) := by
  simp [characters, text, left]

theorem characters_entry (name : String) (value : Nat) (relocatable : Bool) :
    (entry name value relocatable).characters =
      'N' :: (padEnd 6 name.toList ++
        ((hexUpper 4 value).toList ++ [if relocatable then 'R' else 'A'])) := by
  cases relocatable <;> simp [characters, text, left]

theorem characters_external (name : String) : (external name).characters = 'X' :: name.toList := by
  simp [characters, text]

theorem characters_word (address : Int) (contents : Nat) (relocation : Relocation) :
    (word address contents relocation).characters =
      'T' :: ((hexUpper 4 address).toList ++
        ((hexUpper 4 contents).toList ++ relocation.tag.toList)) := by
  simp [characters, text]

theorem characters_start (address : Int) :
    (start address).characters = 'E' :: (hexUpper 4 address).toList := by
  simp [characters, text]

end ObjectRecord

namespace ObjectFile

open Text

variable {program : Program}

theorem number?_of_places {value : Int} {digits : List Char} (places : IsFourPlaces value digits) :
    number? digits = some value.toNat := by
  have printed : digits.all isPrintedDigit = true := List.all_eq_true.mpr places.printed
  have denoted := places.denoted
  rw [number?, if_pos ⟨places.length, printed⟩]
  congr 1
  omega

theorem name_padEnd {segment : String} (named : IsName 6 segment.toList) :
    name (padEnd 6 segment.toList) = segment := by
  rw [name, trimEnd_padEnd named.filled, String.ofList_toList]

theorem header?_characters {segment : String} {firstAddress length : Int}
    (fits : (ObjectRecord.header segment firstAddress length).Fits program) :
    header? (ObjectRecord.header segment firstAddress length).characters =
      some (segment, firstAddress, length) := by
  obtain ⟨named, first, low, high⟩ := fits
  have places := isFourPlaces_hexUpper first.1 first.2
  have count := isFourPlaces_hexUpper low high
  have width := length_padEnd_of_isName named
  rw [ObjectRecord.characters_header, header?, line?, if_pos rfl, List.drop_left' width,
    List.take_left' places.length,
    List.take_left' width, ← List.append_assoc,
    List.drop_left' (by rw [List.length_append, width, places.length]), number?_of_places places,
    number?_of_places count, name_padEnd named]
  simp [Int.toNat_of_nonneg first.1, Int.toNat_of_nonneg low]

theorem entry?_characters {name : String} {value : Nat} {relocatable : Bool}
    (fits : (ObjectRecord.entry name value relocatable).Fits program) :
    entry? (ObjectRecord.entry name value relocatable).characters =
      some { name, value, relocatable } := by
  obtain ⟨named, small⟩ := fits
  have places := isFourPlaces_word small
  have width := length_padEnd_of_isName named
  rw [ObjectRecord.characters_entry, entry?, line?, if_pos rfl, List.drop_left' width,
    List.take_left' places.length,
    List.take_left' width, ← List.append_assoc,
    List.drop_left' (by rw [List.length_append, width, places.length]), number?_of_places places,
    name_padEnd named]
  cases relocatable <;> rfl

theorem external?_characters (name : String) :
    external? (ObjectRecord.external name).characters = some name := by
  rw [ObjectRecord.characters_external, external?, line?, if_pos rfl, String.ofList_toList]

theorem word?_characters {address : Int} {contents : Nat} {relocation : Relocation}
    (fits : (ObjectRecord.word address contents relocation).Fits program) :
    word? (ObjectRecord.word address contents relocation).characters =
      some { address, contents, tag := relocation.tag } := by
  obtain ⟨place, small, _⟩ := fits
  have places := isFourPlaces_hexUpper place.1 place.2
  have held := isFourPlaces_word small
  rw [ObjectRecord.characters_word, word?, line?, if_pos rfl, List.take_left' places.length,
    List.drop_left' places.length, List.take_left' held.length, ← List.append_assoc,
    List.drop_left' (by rw [List.length_append, places.length, held.length]),
    number?_of_places places,
    number?_of_places held, String.ofList_toList]
  simp [Int.toNat_of_nonneg place.1]

theorem start?_characters {address : Int} (fits : (ObjectRecord.start address).Fits program) :
    start? (ObjectRecord.start address).characters = some address := by
  have places := isFourPlaces_hexUpper fits.1 fits.2
  rw [ObjectRecord.characters_start, start?, line?, if_pos rfl, number?_of_places places]
  simp [Int.toNat_of_nonneg fits.1]

theorem line?_of_letter {letter : Char} {rest? : List Char → Option α} {record : ObjectRecord}
    (other : record.letter ≠ letter) : line? letter rest? record.characters = none := by
  obtain ⟨rest, line⟩ := List.head?_eq_some_iff.mp record.head?_characters
  rw [line, line?, if_neg other]

/-- A section ends at the first line with another letter. -/
theorem readWhile_append {letter : Char} {rest? : List Char → Option α}
    {records others : List ObjectRecord} {items : List α}
    (each : List.Forall₂ (fun record item => line? letter rest? record.characters = some item)
      records items)
    (stop : ∀ other ∈ others, other.letter ≠ letter) :
    readWhile (line? letter rest?) ((records ++ others).map ObjectRecord.characters) =
      (items, others.map ObjectRecord.characters) := by
  induction each with
  | nil =>
      cases others with
      | nil => rfl
      | cons other others =>
          simp only [List.nil_append, List.map_cons, readWhile,
            line?_of_letter (stop other (by simp))]
  | cons head _ induction =>
      simp only [List.cons_append, List.map_cons, readWhile, head, induction]

end ObjectFile

/-- The object record of an entry point. -/
def EntryPoint.record (point : EntryPoint) : ObjectRecord :=
  .entry point.name point.value point.relocatable

/-- An entry point shows a declared name with the symbol that defines it. -/
def EntryPoint.Shows (program : Program) (point : EntryPoint) (declaration : Declaration) :
    Prop :=
  point.name = declaration.name ∧
    ∃ symbol, program.symbol? declaration.name = some symbol ∧
      point.value = symbol.value ∧ point.relocatable = symbol.relocatable

/-- A word as its object line shows it. -/
def StoredWord.tagged (word : StoredWord) : TaggedWord :=
  { address := word.address, contents := word.contents, tag := word.relocation.tag }

namespace ObjectFile

/-- A file says what a program and its output are. -/
structure Describes (file : ObjectFile) (program : Program) (output : Output) : Prop where
  segment : file.segment = program.segment
  firstAddress : file.firstAddress = program.firstAddress
  length : file.length = program.length
  entries : List.Forall₂ (EntryPoint.Shows program) file.entries program.entries
  externals : file.externals = program.externals.map Declaration.name
  words : file.words = output.words.map StoredWord.tagged
  start : file.start = program.execAddress

/-- The sections of an object file are told apart by their letters. -/
theorem read?_objectText {program : Program} {output : Output} {segment : String}
    {firstAddress length exec : Int} {entries : List EntryPoint} {externals : List String}
    (object : output.object =
      .header segment firstAddress length :: entries.map EntryPoint.record ++
        externals.map .external ++ output.words.map StoredWord.record ++ [.start exec])
    (fits : ∀ record ∈ output.object, record.Fits program)
    (unbroken : ∀ line ∈ output.objectLines, ∀ c ∈ line.toList, Text.isFileBreak c = false) :
    read? output.objectText =
      some { segment, firstAddress, length, entries, externals,
             words := output.words.map StoredWord.tagged, start := exec } := by
  have lines : Text.breakLines Text.isFileBreak output.objectText.toList =
      output.object.map ObjectRecord.characters := by
    rw [Output.objectText, Text.breakLines_unlines unbroken, Output.objectLines, List.map_map]
    rfl
  simp only [object, List.forall_mem_append, List.forall_mem_cons, List.forall_mem_map] at fits
  obtain ⟨⟨⟨⟨headerFits, pointsFit⟩, _⟩, wordsFit⟩, startFits⟩ := fits
  have points : List.Forall₂
      (fun (record : ObjectRecord) point => entry? record.characters = some point)
      (entries.map EntryPoint.record) entries := by
    rw [List.forall₂_map_left_iff, List.forall₂_same]
    exact fun point member => entry?_characters (pointsFit point member)
  have names : List.Forall₂
      (fun (record : ObjectRecord) name => external? record.characters = some name)
      (externals.map .external) externals := by
    rw [List.forall₂_map_left_iff, List.forall₂_same]
    exact fun name _ => external?_characters name
  have words : List.Forall₂
      (fun (record : ObjectRecord) word => word? record.characters = some word)
      (output.words.map StoredWord.record) (output.words.map StoredWord.tagged) := by
    rw [List.forall₂_map_left_iff, List.forall₂_map_right_iff, List.forall₂_same]
    exact fun word member => word?_characters (wordsFit word member)
  have afterWords : ∀ record ∈ [ObjectRecord.start exec], record.letter ≠ 'T' := by
    simp [ObjectRecord.letter]
  have afterNames : ∀ record ∈ output.words.map StoredWord.record ++ [ObjectRecord.start exec],
      record.letter ≠ 'X' := by
    simp only [List.forall_mem_append, List.forall_mem_map, List.forall_mem_singleton]
    simp [ObjectRecord.letter, StoredWord.record]
  have afterPoints : ∀ record ∈ externals.map ObjectRecord.external ++
      (output.words.map StoredWord.record ++ [ObjectRecord.start exec]), record.letter ≠ 'N' := by
    simp only [List.forall_mem_append, List.forall_mem_map, List.forall_mem_singleton]
    simp [ObjectRecord.letter, StoredWord.record]
  have readPoints : readWhile entry? _ = _ := readWhile_append points afterPoints
  have readNames : readWhile external? _ = _ := readWhile_append names afterNames
  have readWords : readWhile word? _ = _ := readWhile_append words afterWords
  simp only [read?, lines, object, List.append_assoc, List.cons_append, List.map_cons,
    header?_characters headerFits, readPoints, readNames, readWords, List.map_nil,
    start?_characters startFits.1]
  rfl

end ObjectFile

namespace ObjectRecord

open Text

variable {program : Program}

theorem isTag_tag {relocation : Relocation} (declared : program.Declares relocation) :
    IsTag program relocation.tag.toList := by
  cases relocation with
  | fixed => exact .fixed
  | field => exact .field
  | address => exact .address
  | external width name =>
      -- A width takes one digit, since no more than fifteen is printed.
      obtain ⟨low, external⟩ := declared
      have nonnegative : 0 ≤ min width 0xF := by omega
      obtain ⟨natural, shown⟩ := Int.eq_ofNat_of_zero_le nonnegative
      obtain ⟨digit, single, printed⟩ := hexUpper_digit (show natural < 16 by omega)
      have tag : (Relocation.external width name).tag.toList = 'X' :: digit :: name.toList := by
        rw [Relocation.tag, shown, String.toList_append, String.toList_append, single]
        rfl
      rw [tag]
      exact .external printed external

/-- A record that fits has the form of its letter. -/
theorem Fits.line {record : ObjectRecord} (fits : record.Fits program) :
    ObjectLine program record.letter record.characters := by
  cases record with
  | header segment firstAddress length =>
      obtain ⟨named, first, low, high⟩ := fits
      refine .header (head?_characters _) ?_
      rw [characters_header, List.length_cons, List.length_append, List.length_append,
        length_padEnd_of_isName named, (isFourPlaces_hexUpper first.1 first.2).length,
        (isFourPlaces_hexUpper low high).length]
  | entry name value relocatable =>
      obtain ⟨named, small⟩ := fits
      refine .entry (head?_characters _) ?_
      rw [characters_entry, List.length_cons, List.length_append, List.length_append,
        length_padEnd_of_isName named, (isFourPlaces_word small).length, List.length_singleton]
  | external name =>
      rw [characters_external]
      exact .external fits
  | word address contents relocation =>
      obtain ⟨place, small, declared⟩ := fits
      have places := isFourPlaces_hexUpper place.1 place.2
      have held := isFourPlaces_word small
      rw [characters_word, ← List.append_assoc]
      refine .word ?_ ?_ (isTag_tag declared)
      · rw [List.length_append, places.length, held.length]
      · exact List.forall_mem_append.mpr ⟨places.printed, held.printed⟩
  | start address =>
      refine .start (head?_characters _) ?_
      rw [characters_start, List.length_cons, (isFourPlaces_hexUpper fits.1 fits.2).length]

/-- No line break stands in a name, a number or a tag. -/
theorem Fits.unbroken {record : ObjectRecord} (named : program.Named)
    (fits : record.Fits program) : ∀ c ∈ record.characters, isTextBreak c = false := by
  have digits {value : Int} {columns : List Char} (places : IsFourPlaces value columns) :
      ∀ c ∈ columns, isTextBreak c = false := fun c member =>
    isTextBreak_of_isAlphanumeric
      (isAlphanumeric_of_isPrintedDigit (places.printed c member))
  have external {name : String} (declared : program.isExternal name = true) :
      ∀ c ∈ name.toList, isTextBreak c = false := by
    obtain ⟨declaration, member, same⟩ := List.any_eq_true.mp declared
    rw [← eq_of_beq same]
    exact fun c inside =>
      isTextBreak_of_isAlphanumeric ((named.externals declaration member).plain c inside)
  have tag {characters : List Char} (tagged : IsTag program characters) :
      ∀ c ∈ characters, isTextBreak c = false := by
    cases tagged with
    | fixed => simp
    | field =>
        simp only [List.forall_mem_cons]
        exact ⟨by decide, by decide, by simp⟩
    | address =>
        simp only [List.forall_mem_cons]
        exact ⟨by decide, by decide, by simp⟩
    | external hexadecimal declared =>
        simp only [List.forall_mem_cons]
        exact ⟨by decide, isTextBreak_of_isAlphanumeric
          (isAlphanumeric_of_isPrintedDigit hexadecimal), external declared⟩
  cases record with
  | header segment firstAddress length =>
      obtain ⟨segmentNamed, first, low, high⟩ := fits
      rw [characters_header]
      simp only [List.forall_mem_cons, List.forall_mem_append]
      exact ⟨by decide, isTextBreak_padEnd segmentNamed,
        digits (isFourPlaces_hexUpper first.1 first.2), digits (isFourPlaces_hexUpper low high)⟩
  | entry name value relocatable =>
      obtain ⟨symbolNamed, small⟩ := fits
      rw [characters_entry]
      simp only [List.forall_mem_cons, List.forall_mem_append]
      refine ⟨by decide, isTextBreak_padEnd symbolNamed, digits (isFourPlaces_word small),
        ?_, by simp⟩
      cases relocatable <;> decide
  | external name =>
      rw [characters_external, List.forall_mem_cons]
      exact ⟨by decide, external fits⟩
  | word address contents relocation =>
      obtain ⟨place, small, declared⟩ := fits
      rw [characters_word]
      simp only [List.forall_mem_cons, List.forall_mem_append]
      exact ⟨by decide, digits (isFourPlaces_hexUpper place.1 place.2),
        digits (isFourPlaces_word small), tag (isTag_tag declared)⟩
  | start address =>
      rw [characters_start, List.forall_mem_cons]
      exact ⟨by decide, digits (isFourPlaces_hexUpper fits.1 fits.2)⟩

end ObjectRecord

namespace Program

theorem encodeEntries_eq_ok {program : Program} {declarations : List Declaration}
    {points : List ObjectRecord}
    (outcome : program.encodeEntries declarations = .ok points) :
    ∃ entries, points = entries.map EntryPoint.record ∧
      List.Forall₂ (EntryPoint.Shows program) entries declarations := by
  induction declarations generalizing points with
  | nil =>
      cases outcome
      exact ⟨[], rfl, .nil⟩
  | cons declaration declarations induction =>
      simp only [encodeEntries, encodeEntry, bind_eq_ok_iff, pure_eq_ok,
        Except.ok.injEq] at outcome
      obtain ⟨_, ⟨symbol, required, rfl⟩, others, tail, rfl⟩ := outcome
      obtain ⟨entries, rfl, shown⟩ := induction tail
      have found : program.symbol? declaration.name = some symbol := by
        unfold requireSymbol at required
        split at required
        · rename_i found
          cases required
          exact found
        · cases required
      have same : symbol.name = declaration.name := by
        simpa using List.find?_some found
      exact ⟨⟨symbol.name, symbol.value, symbol.relocatable⟩ :: entries, rfl,
        .cons ⟨same, symbol, found, rfl, rfl⟩ shown⟩

theorem fits_of_encode {limits : Limits} {program : Program} {output : Output}
    {outputs : List Output} {points : List ObjectRecord}
    (assembled : program.Assembled limits) (named : program.Named)
    (start : program.firstAddress ≤ program.execAddress ∧ program.execAddress ≤ maxAddress)
    (outcome : program.encode = .ok output)
    (emission : program.Emission output outputs points) :
    ∀ record ∈ output.object, record.Fits program := by
  have valid := valid_of_encode assembled outcome
  have nonnegative := assembled.nonnegative
  have bounded := assembled.bounded
  have ordered := assembled.laidOut.le assembled.wellFormed
  have length := assembled.length
  simp only [maxAddress] at start bounded
  obtain ⟨entries, listed, shown⟩ := encodeEntries_eq_ok emission.entries
  rw [emission.object, listed]
  simp only [List.forall_mem_append, List.forall_mem_cons, List.forall_mem_map]
  refine ⟨⟨⟨⟨⟨named.segment, by omega, by omega⟩, ?_⟩, ?_⟩, ?_⟩, ⟨by omega, by omega⟩, by simp⟩
  · intro point member
    obtain ⟨declaration, _, same, symbol, found, value, _⟩ :=
      exists_right_of_forall₂ shown member
    have defined := named.symbols symbol (List.mem_of_find?_eq_some found)
    have symbolName : symbol.name = declaration.name := by
      simpa using List.find?_some found
    refine ⟨?_, ?_⟩
    · rw [same, ← symbolName]
      exact defined.1
    · rw [value]
      exact defined.2
  · intro declaration member
    exact List.any_eq_true.mpr ⟨declaration, member, beq_self_eq_true _⟩
  · intro word member
    have placed := valid word member
    have below := placed.below
    exact ⟨⟨placed.nonnegative, by omega⟩, placed.bounded, placed.declared⟩

/-- The object file of a program that was read has its form and is read back. -/
theorem objectFile_of_encode {limits : Limits} {source : Source} {program : Program}
    {output : Output} (read : (Program.read limits source).outcome = .ok program)
    (outcome : program.encode = .ok output) :
    ObjectFormat program output.objectLines ∧
      ∃ file, ObjectFile.read? output.objectText = some file ∧
        file.Describes program output := by
  have assembled := assembled_of_read read
  have named := named_of_read read
  obtain ⟨outputs, points, emission⟩ := encode_emission assembled outcome
  have fits := fits_of_encode assembled named (execAddress_of_read read) outcome emission
  obtain ⟨entries, listed, shown⟩ := encodeEntries_eq_ok emission.entries
  have object := emission.object
  rw [listed] at object
  have unbroken : ∀ line ∈ output.objectLines, ∀ c ∈ line.toList,
      Text.isTextBreak c = false := by
    intro line member
    obtain ⟨record, recordMember, rfl⟩ := List.mem_map.mp member
    exact (fits record recordMember).unbroken named
  constructor
  · have formed : ∀ record ∈ output.object,
        ObjectLine program record.letter record.text.toList := fun record member =>
      (fits record member).line
    simp only [object, List.forall_mem_append, List.forall_mem_cons, List.forall_mem_map] at formed
    obtain ⟨⟨⟨⟨header, points⟩, names⟩, words⟩, start, _⟩ := formed
    refine ⟨⟨_, (entries.map EntryPoint.record).map ObjectRecord.text,
      (program.externals.map fun declaration =>
        ObjectRecord.external declaration.name).map ObjectRecord.text,
      (output.words.map StoredWord.record).map ObjectRecord.text, _, ?_, header, ?_, ?_, ?_,
      start⟩, unbroken⟩
    · rw [Output.objectLines, object]
      simp only [List.map_append, List.map_cons, List.map_nil]
    · simp only [List.forall_mem_map]
      exact points
    · simp only [List.forall_mem_map]
      exact names
    · simp only [List.forall_mem_map]
      exact words
  · have fileBreaks : ∀ line ∈ output.objectLines, ∀ c ∈ line.toList,
        Text.isFileBreak c = false := by
      intro line member c inside
      cases breaks : Text.isFileBreak c with
      | false => rfl
      | true =>
          have text := Text.isTextBreak_of_isFileBreak breaks
          exact absurd (unbroken line member c inside) (by simp [text])
    have names : program.externals.map (fun declaration => .external declaration.name) =
        (program.externals.map Declaration.name).map ObjectRecord.external := by
      rw [List.map_map]
      rfl
    rw [names] at object
    have decoded := ObjectFile.read?_objectText object fits fileBreaks
    exact ⟨_, decoded, rfl, rfl, rfl, shown, rfl, rfl, rfl⟩

end Program

/-- The object file of whatever assembles has its form and tells everything a
linker needs, so programs with the same object text agree on all of it. -/
theorem assemble_objectFile {limits : Limits} {source : Source} {program : Program}
    {output : Output} (outcome : (assemble limits source).outcome = .ok (program, output)) :
    ObjectFormat program output.objectLines ∧
      ∃ file, ObjectFile.read? output.objectText = some file ∧
        file.Describes program output ∧
        ∀ otherLimits otherSource other result,
          (assemble otherLimits otherSource).outcome = .ok (other, result) →
          result.objectText = output.objectText → file.Describes other result := by
  obtain ⟨read, encoded⟩ := assemble_eq_ok outcome
  obtain ⟨format, file, decoded, describes⟩ := Program.objectFile_of_encode read encoded
  refine ⟨format, file, decoded, describes, ?_⟩
  intro otherLimits otherSource other result otherOutcome same
  obtain ⟨otherRead, otherEncoded⟩ := assemble_eq_ok otherOutcome
  obtain ⟨_, otherFile, otherDecoded, otherDescribes⟩ :=
    Program.objectFile_of_encode otherRead otherEncoded
  rw [same, decoded, Option.some.injEq] at otherDecoded
  rw [otherDecoded]
  exact otherDescribes

/-- A relocatable segment with an entry point, an external name of seven
characters and a tag of every kind. -/
def linkedSegment : Source :=
  .ofLines
    ["LINKED   .ORIG",
      "         .ENT    START",
      "         .EXT    FAREND7",
      "START    LD      R1,DATA",
      "         AND     R1,R1,DATA",
      "         TRAP    FAREND7",
      "DATA     .FILL   FAREND7",
      "         .END    START"]

theorem linkedSegment_objectFile :
    ∃ program output,
      (assemble {} linkedSegment).outcome = .ok (program, output) ∧
      ObjectFormat program output.objectLines ∧
        ∃ file, ObjectFile.read? output.objectText = some file ∧
          file.Describes program output ∧
          ∀ otherLimits otherSource other result,
            (assemble otherLimits otherSource).outcome = .ok (other, result) →
            result.objectText = output.objectText → file.Describes other result := by
  have succeeds : (assemble {} linkedSegment).outcome.isOk = true := by decide +kernel
  obtain ⟨⟨program, output⟩, outcome⟩ := exists_eq_ok succeeds
  exact ⟨program, output, outcome, assemble_objectFile outcome⟩

end Lc3Assembler
