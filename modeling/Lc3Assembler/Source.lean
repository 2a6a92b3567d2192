import Lc3Assembler.Failure
import Lc3Assembler.Text.Lines

/-!
# Sources

A source supplies lines, and then ends, fails to be read, or turns out not to
be UTF-8.  What comes after the lines matters only to a reader that asks for
more of them.
-/

namespace Lc3Assembler

/-- How the supply of lines ends. -/
inductive Ending where
  | complete
  | unreadable (refusal : Refusal)
  | undecodable (fault : Text.Utf8.Fault)
  deriving DecidableEq, Repr

/-- Lines in order, and how their supply ends. -/
structure Source where
  lines : List String
  ending : Ending
  deriving DecidableEq, Repr

namespace Source

def ofLines (lines : List String) : Source :=
  { lines, ending := .complete }

def ofText (text : String) : Source :=
  .ofLines (Text.textLines text)

/-- A source that fails after its first `count` lines. -/
def failingAfter (count : Nat) (refusal : Refusal) (lines : List String) : Source :=
  { lines := lines.take count, ending := .unreadable refusal }

/-- The bytes of a file.  The lines before a fault are those that are complete
in the characters handed over before it is found. -/
def ofBytes (bytes : List UInt8) : Source :=
  let content := Text.Utf8.decode bytes
  match content.fault with
  | none => .ofLines (Text.fileLines content.text)
  | some fault =>
      { lines := Text.finishedFileLines content.text, ending := .undecodable fault }

end Source

end Lc3Assembler
