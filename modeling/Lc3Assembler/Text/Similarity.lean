import Lc3Assembler.Text.Sorted

/-!
# Similar texts

Two texts are matched by their longest common block, and then what stands
before it and what stands behind it are matched in the same way.  Texts are
similar if at least three fifths of their characters are matched.
-/

namespace Lc3Assembler.Text

/-- The length of the longest common start of two texts. -/
def commonStart : List Char → List Char → Nat
  | left :: lefts, right :: rights => if left = right then commonStart lefts rights + 1 else 0
  | _, _ => 0

/-- A run of characters that two texts share: where it starts in each of them,
and how long it is. -/
structure CommonBlock where
  inLeft : Nat
  inRight : Nat
  length : Nat
  deriving DecidableEq, Repr

/-- The common block that starts at each pair of positions. -/
def commonBlocks (left right : List Char) : List CommonBlock :=
  (List.range left.length).flatMap fun inLeft =>
    (List.range right.length).map fun inRight =>
      { inLeft, inRight, length := commonStart (left.drop inLeft) (right.drop inRight) }

/-- The longer of two blocks; the first if neither is longer. -/
def CommonBlock.longer (first second : CommonBlock) : CommonBlock :=
  if first.length < second.length then second else first

/-- The longest common block; of several it is the one that starts earliest in
the left text, and then in the right one. -/
def longestBlock (left right : List Char) : CommonBlock :=
  (commonBlocks left right).foldl CommonBlock.longer { inLeft := 0, inRight := 0, length := 0 }

/-- The number of matched characters, with at most `depth` nested matches. -/
def matchedWithin : Nat → List Char → List Char → Nat
  | 0, _, _ => 0
  | depth + 1, left, right =>
      let block := longestBlock left right
      if block.length = 0 then 0
      else
        matchedWithin depth (left.take block.inLeft) (right.take block.inRight) + block.length
          + matchedWithin depth (left.drop (block.inLeft + block.length))
              (right.drop (block.inRight + block.length))

/-- The number of characters of one text that are matched in the other.  Each
match takes a character, so there are no more matches than characters. -/
def matchedCount (left right : List Char) : Nat :=
  matchedWithin left.length left right

/-- How well a candidate matches a text. -/
structure Match where
  candidate : String
  matched : Nat
  total : Nat
  deriving DecidableEq, Repr

namespace Match

/-- Whether a number of matched characters is three fifths of both texts. -/
def isEnough (matched total : Nat) : Bool :=
  3 * total ≤ 10 * matched

/-- The match of a candidate that is similar to a text.  A text that is too
long or too short for that is not looked at more closely. -/
def of? (text candidate : String) : Option Match :=
  let left := candidate.toList
  let right := text.toList
  let total := left.length + right.length
  if isEnough (min left.length right.length) total then
    let matched := matchedCount left right
    if isEnough matched total then
      some { candidate := candidate, matched := matched, total := total }
    else none
  else none

/-- The better match has the greater share of matched characters; of two equal
shares the candidate that is later in the alphabet is the better one. -/
def isBetter (first second : Match) : Bool :=
  let firstShare := first.matched * second.total
  let secondShare := second.matched * first.total
  secondShare < firstShare || (firstShare = secondShare && second.candidate ≤ first.candidate)

end Match

/-- The most candidates that are offered. -/
def maxSuggestions : Nat := 3

/-- The candidates most similar to a text, in alphabetical order. -/
def suggestions (text : String) (candidates : List String) : List String :=
  let similar := sortBy Match.isBetter (candidates.filterMap (Match.of? text))
  sorted ((similar.take maxSuggestions).map Match.candidate)

end Lc3Assembler.Text
