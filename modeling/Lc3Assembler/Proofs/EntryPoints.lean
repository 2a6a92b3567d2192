import Lc3Assembler.Proofs.LineEdits
import Lc3Assembler.Proofs.Utf8RoundTrip

/-!
# Texts in memory and texts in files

The same text can be assembled from memory and from a file.  The file gives the
text back, but breaks it at fewer characters.  Where a text has none of the others,
or has them only behind the end of the segment, both ways assemble it alike.
-/

namespace Lc3Assembler

namespace Text

/-- A separator at which a text in memory breaks and a file does not. -/
def isMemoryBreak (c : Char) : Bool :=
  isTextBreak c && !isFileBreak c

theorem isTextBreak_eq_isFileBreak {c : Char} (shared : isMemoryBreak c = false) :
    isTextBreak c = isFileBreak c := by
  cases fileBreak : isFileBreak c with
  | true => exact isTextBreak_of_isFileBreak fileBreak
  | false => simpa [isMemoryBreak, fileBreak] using shared

section

variable {isBreak : Char → Bool} {text : List Char}

/-- The lines of a text whose first character is not half of a break. -/
theorem breakLines_cons {c : Char} {rest : List Char}
    (single : ∀ others, c = '\r' → rest = '\n' :: others → False) :
    breakLines isBreak (c :: rest) =
      if isBreak c then [] :: breakLines isBreak rest
      else
        match breakLines isBreak rest with
        | [] => [[c]]
        | line :: lines => (c :: line) :: lines :=
  breakLines.eq_3 isBreak c rest single

theorem breakLines_congr {other : Char → Bool} (same : ∀ c ∈ text, isBreak c = other c) :
    breakLines isBreak text = breakLines other text := by
  fun_induction breakLines isBreak text with
  | case1 => rfl
  | case2 rest induction =>
      rw [breakLines, induction fun c member => same c (by simp [member])]
  | case3 c rest single broken induction =>
      have further := induction fun c member => same c (by simp [member])
      rw [same c (by simp)] at broken
      rw [breakLines_cons single, if_pos broken, further]
  | case4 c rest single whole lines induction =>
      have further := induction fun c member => same c (by simp [member])
      rw [same c (by simp)] at whole
      rw [breakLines_cons single, if_neg whole, ← further, lines]
  | case5 c rest single whole line lines first induction =>
      have further := induction fun c member => same c (by simp [member])
      rw [same c (by simp)] at whole
      rw [breakLines_cons single, if_neg whole, ← further, first]

theorem breakLines_eq_nil_iff : breakLines isBreak text = [] ↔ text = [] := by
  constructor
  · intro none
    fun_cases breakLines isBreak text with
    | case1 => rfl
    | case2 rest => simp [breakLines] at none
    | case3 c rest single broken => simp [breakLines_cons single, broken] at none
    | case4 c rest single whole lines => simp [breakLines_cons single, whole, lines] at none
    | case5 c rest single whole line lines first =>
        simp [breakLines_cons single, whole, first] at none
  · rintro rfl
    rfl

/-- No line holds a break. -/
theorem not_break_of_mem_line {line : List Char} {c : Char}
    (isLine : line ∈ breakLines isBreak text) (member : c ∈ line) : isBreak c = false := by
  fun_induction breakLines isBreak text generalizing line with
  | case1 => cases isLine
  | case2 rest induction =>
      rcases List.mem_cons.mp isLine with rfl | later
      · cases member
      · exact induction later member
  | case3 first rest single broken induction =>
      rcases List.mem_cons.mp isLine with rfl | later
      · cases member
      · exact induction later member
  | case4 first rest single whole none induction =>
      rw [List.mem_singleton.mp isLine, List.mem_singleton] at member
      rw [member]
      exact Bool.eq_false_of_not_eq_true whole
  | case5 first rest single whole front lines further induction =>
      rcases List.mem_cons.mp isLine with rfl | later
      · rcases List.mem_cons.mp member with rfl | inside
        · exact Bool.eq_false_of_not_eq_true whole
        · exact induction (by simp [further]) inside
      · exact induction (by simp [further, later]) member

/-- A character that is no break stands in some line. -/
theorem exists_line_of_mem {c : Char} (member : c ∈ text) (inFile : isFileBreak c = false)
    (kept : isBreak c = false) : ∃ line ∈ breakLines isBreak text, c ∈ line := by
  fun_induction breakLines isBreak text with
  | case1 => cases member
  | case2 rest induction =>
      have later : c ∈ rest := by
        rcases List.mem_cons.mp member with rfl | member
        · cases inFile
        rcases List.mem_cons.mp member with rfl | member
        · cases inFile
        exact member
      obtain ⟨line, isLine, inside⟩ := induction later
      exact ⟨line, List.mem_cons_of_mem _ isLine, inside⟩
  | case3 first rest single broken induction =>
      rcases List.mem_cons.mp member with rfl | later
      · rw [kept] at broken
        cases broken
      · obtain ⟨line, isLine, inside⟩ := induction later
        exact ⟨line, List.mem_cons_of_mem _ isLine, inside⟩
  | case4 first rest single whole none induction =>
      rw [breakLines_eq_nil_iff] at none
      rw [none, List.mem_singleton] at member
      exact ⟨[first], by simp, by simp [member]⟩
  | case5 first rest single whole front lines further induction =>
      rw [further] at induction
      rcases List.mem_cons.mp member with rfl | later
      · exact ⟨c :: front, by simp, by simp⟩
      · obtain ⟨line, isLine, inside⟩ := induction later
        rcases List.mem_cons.mp isLine with rfl | isLine
        · exact ⟨first :: line, by simp, by simp [inside]⟩
        · exact ⟨line, by simp [isLine], inside⟩

/-- The two ways of breaking a text differ wherever they can. -/
theorem breakLines_eq_iff :
    breakLines isFileBreak text = breakLines isTextBreak text ↔
      ∀ c ∈ text, isMemoryBreak c = false := by
  constructor
  · intro same c member
    by_contra separates
    obtain ⟨inMemory, inFile⟩ : isTextBreak c = true ∧ isFileBreak c = false := by
      simpa [isMemoryBreak] using separates
    -- The file keeps the separator in a line, where the text in memory has no break.
    obtain ⟨line, isLine, inside⟩ := exists_line_of_mem member inFile inFile
    rw [same] at isLine
    rw [not_break_of_mem_line isLine inside] at inMemory
    cases inMemory
  · intro shared
    exact breakLines_congr fun c member => (isTextBreak_eq_isFileBreak (shared c member)).symm

/-- A break starts a line that is empty. -/
theorem exists_breakLines_break (breaks : ∀ c, isFileBreak c = true → isBreak c = true)
    {ended : Char} (fileBreak : isFileBreak ended = true) (rest : List Char) :
    ∃ tail, breakLines isBreak (ended :: rest) = [] :: tail := by
  by_cases pair : ∃ others, ended = '\r' ∧ rest = '\n' :: others
  · obtain ⟨others, rfl, rfl⟩ := pair
    exact ⟨_, rfl⟩
  · have single : ∀ others, ended = '\r' → rest = '\n' :: others → False := by
      intro others carriageReturn lineFeed
      exact pair ⟨others, carriageReturn, lineFeed⟩
    rw [breakLines_cons single, if_pos (breaks ended fileBreak)]
    exact ⟨_, rfl⟩

/-- Lines that a break has ended stay as they are, whatever follows. -/
theorem exists_breakLines_append (breaks : ∀ c, isFileBreak c = true → isBreak c = true)
    {ended : Char} (fileBreak : isFileBreak ended = true) (rest : List Char) :
    ∃ tail, breakLines isBreak (text ++ ended :: rest) = breakLines isBreak text ++ tail := by
  have notReturn {first : Char} {more : List Char} (whole : ¬isBreak first = true) :
      ∀ others, first = '\r' → more = '\n' :: others → False := by
    rintro others rfl _
    exact whole (breaks '\r' rfl)
  fun_induction breakLines isBreak text with
  | case1 => exact ⟨_, rfl⟩
  | case2 more induction =>
      obtain ⟨tail, lines⟩ := induction
      exact ⟨tail, congrArg ([] :: ·) lines⟩
  | case3 first more single broken induction =>
      -- A carriage return at the end of the text and a line feed behind it are one break.
      by_cases pair : first = '\r' ∧ more = [] ∧ ended = '\n'
      · obtain ⟨rfl, rfl, rfl⟩ := pair
        exact ⟨_, rfl⟩
      · have stillSingle : ∀ others, first = '\r' → more ++ ended :: rest = '\n' :: others →
            False := by
          intro others carriageReturn lineFeed
          cases more with
          | nil =>
              rw [List.nil_append, List.cons.injEq] at lineFeed
              exact pair ⟨carriageReturn, rfl, lineFeed.1⟩
          | cons second more =>
              rw [List.cons_append, List.cons.injEq] at lineFeed
              exact single more carriageReturn (by rw [lineFeed.1])
        obtain ⟨tail, lines⟩ := induction
        rw [List.cons_append, breakLines_cons stillSingle, if_pos broken, lines]
        exact ⟨tail, rfl⟩
  | case4 first more single whole none induction =>
      obtain ⟨tail, lines⟩ := exists_breakLines_break breaks fileBreak rest
      rw [breakLines_eq_nil_iff.mp none, List.singleton_append,
        breakLines_cons (notReturn whole), if_neg whole, lines]
      exact ⟨tail, rfl⟩
  | case5 first more single whole front lines further induction =>
      obtain ⟨tail, lines⟩ := induction
      rw [List.cons_append, breakLines_cons (notReturn whole), if_neg whole, lines, further]
      exact ⟨tail, rfl⟩

end

end Text

namespace Source

/-- A file that holds an encoded text supplies its lines to the end. -/
theorem ofBytes_encode (text : List Char) :
    ofBytes (Text.Utf8.encode text) = .ofLines (Text.fileLines text) := by
  rw [ofBytes, Text.Utf8.decode_encode]

/-- A text comes from a file as it comes from memory exactly if every separator in it
is a break of a file. -/
theorem ofBytes_encode_eq_ofText_iff (text : String) :
    ofBytes (Text.Utf8.encode text.toList) = .ofText text ↔
      ∀ c ∈ text.toList, Text.isMemoryBreak c = false := by
  rw [ofBytes_encode, ofText, ofLines, ofLines, Source.mk.injEq, Text.fileLines, Text.textLines,
    List.map_inj_right fun _ _ => String.ofList_inj.mp, Text.breakLines_eq_iff]
  exact and_iff_left rfl

/-- As far as a text is read, no separator stands in it that only a text in memory
breaks at: there is none at all, or none up to a break by which reading has
finished. -/
inductive BreaksAlike (limits : Limits) (text : String) : Prop where
  | whole (shared : ∀ c ∈ text.toList, Text.isMemoryBreak c = false)
  | finished {front : String} {ended : Char} {rest : List Char}
      {before : List String} {last : String}
      (cut : text.toList = front.toList ++ ended :: rest)
      (fileBreak : Text.isFileBreak ended = true)
      (shared : ∀ c ∈ front.toList, Text.isMemoryBreak c = false)
      (finishes : (ofText front).FinishesAt limits before last)

/-- What follows a break behind the end of the segment is not read, however the lines
are broken. -/
theorem read_front {limits : Limits} {isBreak : Char → Bool}
    (breaks : ∀ c, Text.isFileBreak c = true → isBreak c = true) {front : List Char}
    {lines before : List String} {last : String}
    (same : (Text.breakLines isBreak front).map String.ofList = lines)
    (finishes : (ofLines lines).FinishesAt limits before last)
    {ended : Char} (fileBreak : Text.isFileBreak ended = true) (rest : List Char) :
    Program.read limits
        (.ofLines ((Text.breakLines isBreak (front ++ ended :: rest)).map String.ofList)) =
      Program.read limits (.ofLines lines) := by
  have ⟨more, _, _, _, cut, _⟩ := finishes
  have split : lines = before ++ last :: more := cut
  obtain ⟨tail, broken⟩ := Text.exists_breakLines_append breaks fileBreak rest
  rw [broken, List.map_append, same]
  nth_rewrite 1 [split]
  rw [List.append_assoc, List.cons_append]
  exact Program.read_finished finishes _ .complete

/-- The same program, warnings and error are read from a file and from memory. -/
theorem BreaksAlike.read {limits : Limits} {text : String} (alike : BreaksAlike limits text) :
    Program.read limits (.ofBytes (Text.Utf8.encode text.toList)) =
      Program.read limits (.ofText text) := by
  cases alike with
  | whole shared => rw [(ofBytes_encode_eq_ofText_iff text).mpr shared]
  | @finished front ended rest before last cut fileBreak shared finishes =>
      have inMemory := read_front (fun _ => Text.isTextBreak_of_isFileBreak) rfl finishes
        fileBreak rest
      have inFile := read_front (fun _ given => given)
        (congrArg (List.map String.ofList) (Text.breakLines_eq_iff.mpr shared)) finishes fileBreak
        rest
      rw [ofBytes_encode, ofText, Text.fileLines, Text.textLines, cut]
      exact inFile.trans inMemory.symm

end Source

theorem Session.assembleSource_of_read {session : Session} {source other : Source}
    (same : Program.read session.limits other = Program.read session.limits source) :
    session.assembleSource other = session.assembleSource source := by
  rw [assembleSource_eq, assembleSource_eq, assemble, assemble, same]

/-- A text that breaks alike is assembled from a file as it is from memory: with the
same program, output, warnings and error. -/
theorem Session.assembleFile_eq_assembleText {session : Session} {directory : Directory}
    {path : Path} {text : String}
    (stored : directory.read path = .ok (Text.Utf8.encode text.toList))
    (alike : Source.BreaksAlike session.limits text) :
    (session.assembleFile directory path).1 = (session.assembleText text).1 ∧
      (session.assembleFile directory path).2.outcome = (session.assembleText text).2.outcome := by
  have same := assembleSource_of_read alike.read
  rw [assembleFile, stored, assembleText]
  simp only [same, and_self]

/-- A segment up to its last record. -/
def returningLines : List String :=
  ["S        .ORIG   x3000", "         RET"]

def returningText : String :=
  "S        .ORIG   x3000\n         RET\n         .END"

/-- The segment with a form feed behind its end. -/
def trailedText : String :=
  returningText ++ "\r\nnotes\x0cmore notes"

/-- A directory with one file, which holds a text. -/
def directoryWith (text : String) : Directory :=
  Directory.addFile {} "p.asm" (Text.Utf8.encode text.toList)

theorem trailedText_agrees :
    (({ limits := {} } : Session).assembleText trailedText).2.outcome.isOk = true ∧
      (Session.assembleFile { limits := {} } (directoryWith trailedText) (.ofString "p.asm")).1 =
        (Session.assembleText { limits := {} } trailedText).1 ∧
      (Session.assembleFile { limits := {} } (directoryWith trailedText)
          (.ofString "p.asm")).2.outcome =
        (Session.assembleText { limits := {} } trailedText).2.outcome := by
  have finishes : (Source.ofText returningText).FinishesAt {} returningLines "         .END" := by
    have lines : Source.ofText returningText =
        .ofLines (returningLines ++ "         .END" :: []) := by decide +kernel
    rw [lines]
    exact Source.finishesAt_of_read (by decide +kernel) (by decide +kernel) []
  have alike : Source.BreaksAlike {} trailedText := by
    refine .finished (String.toList_append ..) ?_ ?_ finishes
    · rfl
    · have shared : returningText.toList.any Text.isMemoryBreak = false := by decide +kernel
      intro c member
      exact Bool.eq_false_of_not_eq_true (List.any_eq_false.mp shared c member)
  exact ⟨by decide +kernel, Session.assembleFile_eq_assembleText (by decide +kernel) alike⟩

/-- A segment with a form feed in a comment. -/
def pagedText : String :=
  "S        .ORIG   x3000\n; page\x0c         RET\n         .END\n"

/-- In memory the comment ends at the form feed, and what follows is a record. -/
theorem pagedText_disagrees :
    Session.start {} = .ok { limits := {} } ∧
      (directoryWith pagedText).read (.ofString "p.asm") =
        .ok (Text.Utf8.encode pagedText.toList) ∧
      (Session.assembleText { limits := {} } pagedText).2.outcome.toOption.map
          Output.objectLines = some ["HS     30000001", "T3000D000", "E3000"] ∧
      (Session.assembleFile { limits := {} } (directoryWith pagedText)
          (.ofString "p.asm")).2.outcome.toOption.map
          Output.objectLines = some ["HS     30000000", "E3000"] := by
  refine ⟨rfl, ?_, ?_, ?_⟩
  · decide +kernel
  · decide +kernel
  · decide +kernel

end Lc3Assembler
