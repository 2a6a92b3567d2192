import Lc3Assembler.Text.Blank

/-!
# Breaking text into lines

Two rules are in use.  A source held in memory breaks at every line
separator character; a file breaks only at line feed and carriage return.
Under both a carriage return followed by a line feed is one break, and the
text after the last break is a line only when it is not empty.
-/

namespace Lc3Assembler.Text

def isFileBreak (c : Char) : Bool :=
  c = '\n' || c = '\r'

/-- The breaks of a text in memory: the breaks of a file, vertical tab, form
feed, the three information separators, next line, and the line and paragraph
separators. -/
def isTextBreak (c : Char) : Bool :=
  inRanges [(0x0A, 0x0D), (0x1C, 0x1E), (0x85, 0x85), (0x2028, 0x2029)] c

/-- The lines of a text, without their breaks. -/
def breakLines (isBreak : Char → Bool) : List Char → List (List Char)
  | [] => []
  | '\r' :: '\n' :: rest => [] :: breakLines isBreak rest
  | c :: rest =>
      if isBreak c then [] :: breakLines isBreak rest
      else
        match breakLines isBreak rest with
        | [] => [[c]]
        | line :: lines => (c :: line) :: lines

def textLines (text : String) : List String :=
  (breakLines isTextBreak text.toList).map String.ofList

def fileLines (text : List Char) : List String :=
  (breakLines isFileBreak text).map String.ofList

/-- The lines that are known to be complete when more text may follow: the
last line waits for its break, and a carriage return at the very end waits
for a line feed. -/
def finishedFileLines (text : List Char) : List String :=
  let settled := if text.getLast? = some '\r' then text.dropLast else text
  match settled.getLast? with
  | none => []
  | some c => if isFileBreak c then fileLines settled else (fileLines settled).dropLast

/-- Drop the line feeds and carriage returns at the end of a line. -/
def chomp (line : String) : String :=
  String.ofList (dropEndWhile isFileBreak line.toList)

/-- Lines as the text of a file: each is followed by a line feed. -/
def unlines (lines : List String) : String :=
  String.join (lines.map (· ++ "\n"))

/-- Every break of a file is a break of a text in memory. -/
theorem isTextBreak_of_isFileBreak {c : Char} (fileBreak : isFileBreak c = true) :
    isTextBreak c = true := by
  simp only [isFileBreak, Bool.or_eq_true, decide_eq_true_eq] at fileBreak
  rcases fileBreak with rfl | rfl <;> decide

end Lc3Assembler.Text
