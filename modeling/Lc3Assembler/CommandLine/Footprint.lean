import Lc3Assembler.CommandLine.Run

/-!
# The footprint of a run

A run depends only on the entries at a few paths: the ones it is given, the
ones it derives from its input, and the directories on the way to them.
-/

namespace Lc3Assembler.CommandLine

/-- A path and every path on the way to it. -/
def pathsTo (path : Path) : List Path :=
  (List.range (path.parts.length + 1)).map fun count =>
    { path with parts := path.parts.take count }

/-- A path with the paths of the files that an input at it is assembled to. -/
def derivedPaths (path : Path) : List Path :=
  [path, path.withSuffix ".obj", path.withSuffix ".lst", path.withSuffix ".dump"]

/-- The paths a run of a command line may look at. -/
def footprint (words : List String) : List Path :=
  match Arguments.read words with
  | .error _ => []
  | .ok arguments =>
      let texts := arguments.words ++ arguments.given.map Given.value
      ((texts.map Path.ofString).flatMap derivedPaths).flatMap pathsTo

end Lc3Assembler.CommandLine
