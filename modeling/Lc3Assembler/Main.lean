import Lc3Assembler.CommandLine.Footprint

/-!
# The program

Collects what a run depends on, carries it out, and hands its results to the
system.  Nothing is decided here.
-/

namespace Lc3Assembler.CommandLine

/-- A directory with what stands at a path, if anything can be found there. -/
def withPath (directory : Directory) (path : Path) : IO Directory := do
  try
    let content ← IO.FS.readBinFile path.text
    return directory.insert (.ofPath path) (.file content.toList)
  catch error =>
    try
      let resolved ← IO.FS.realPath path.text
      if ← resolved.isDir then return directory.insert (.ofPath path) .directory
      else
        match error, ← resolved.pathExists with
        | .permissionDenied .., true => return directory.addUnreadable path
        | _, _ => return directory
    catch _ => return directory

def survey : List Path → IO Directory
  | [] => return {}
  | path :: paths => do
      let directory ← survey paths
      withPath directory path

def limitVariables : IO Limits.Environment := do
  let names := [Limits.symbolsVariable, Limits.literalsVariable, Limits.recordsVariable]
  let assigned ← names.filterMapM fun name => do
    return (← IO.getEnv name).map fun value => (name, value)
  return { assigned }

/-- Write the files that a run changed. -/
def store : List (Location × List UInt8) → IO Unit
  | [] => return ()
  | (location, content) :: rest => do
      IO.FS.writeBinFile location.path.text (ByteArray.mk content.toArray)
      store rest

end Lc3Assembler.CommandLine

open Lc3Assembler CommandLine in
/-- Assemble the file that the command line names. -/
def main (words : List String) : IO UInt32 := do
  let before ← survey (footprint words)
  let outcome := run Request.ofWords before (← limitVariables) words
  IO.print outcome.output
  IO.eprint outcome.errors
  try
    store (Directory.changes before outcome.directory)
    return outcome.status.number.toUInt32
  catch error =>
    IO.eprintln ("I/O error: " ++ toString error)
    return ExitStatus.buildError.number.toUInt32
