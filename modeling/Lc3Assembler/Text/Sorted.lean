/-!
# Sorted lists

Hints list texts in alphabetical order.  Sorting inserts one item after the
other; items that may stand in either order keep the order they came in.
-/

namespace Lc3Assembler.Text

/-- Put an item in front of the first one that it may stand before. -/
def insertBy (mayPrecede : α → α → Bool) (item : α) : List α → List α
  | [] => [item]
  | head :: tail =>
      if mayPrecede item head then item :: head :: tail
      else head :: insertBy mayPrecede item tail

def sortBy (mayPrecede : α → α → Bool) (items : List α) : List α :=
  items.foldr (insertBy mayPrecede) []

/-- Texts in alphabetical order. -/
def sorted (texts : List String) : List String :=
  sortBy (fun left right => decide (left ≤ right)) texts

end Lc3Assembler.Text
