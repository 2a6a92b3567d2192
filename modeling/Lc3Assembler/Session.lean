import Lc3Assembler.Directory
import Lc3Assembler.Encoding
import Lc3Assembler.Program.Dump
import Lc3Assembler.Program.Reader

/-!
# Sessions

A session assembles one source after the other under fixed limits and keeps
the results of the last one: the program, the output and the report.  Every
assembly drops them before it starts, so they are gone also when it fails; only a
file that cannot be opened leaves them as they are.
-/

namespace Lc3Assembler

/-- The limits and the results of the last assembly. -/
structure Session where
  limits : Limits
  program : Option Program := none
  output : Option Output := none
  report : Report := {}
  deriving DecidableEq, Repr

/-- Read a source and encode the program. -/
def assemble (limits : Limits) (source : Source) : Traced (Program × Output) := do
  let program ← Program.read limits source
  Traced.note
    (.parsed program.records.length program.symbols.length program.literals.length)
  let output ← Traced.lift program.encode
  Traced.note (.generated output.object.length output.listing.length program.segment)
  Traced.note (.encoded output.object.length)
  return (program, output)

namespace Session

/-- A session under limits that have to be positive. -/
def start (limits : Limits) : Except Misuse Session :=
  match limits.validate with
  | .ok () => .ok { limits := limits }
  | .error rule => .error rule

/-- Drop the results of the last assembly and all that was reported. -/
def reset (session : Session) : Session :=
  { session with program := none, output := none, report := session.report.clear }

/-- Fail after some events.  An error of the source is reported before it is passed on; every
other failure is passed on as it is. -/
def raise (session : Session) (events : List Event) : Failure → Session × Traced Output
  | .rejected error =>
      ({ session with report := session.report.addError error },
        { events := events ++ [.failed error], outcome := .error (.rejected error) })
  | failure => (session, { events, outcome := .error failure })

/-- Keep the results of an assembly that succeeded. -/
def keep (session : Session) (program : Program) (output : Output) : Session :=
  { session with program := some program, output := some output }

/-- Assemble a source.  The report is handed to a new reader, which adds its warnings while it
reads; the results are kept when nothing can fail any more. -/
def assembleSource (session : Session) (source : Source) : Session × Traced Output :=
  let started := session.reset
  let (reader, reading) :=
    Reader.read { limits := started.limits, report := started.report } source
  let session := { started with report := reader.report }
  match reading.outcome with
  | .error failure => session.raise reading.events failure
  | .ok program =>
      let parsed := Event.parsed program.records.length program.symbols.length
        program.literals.length
      let events := reading.events ++ [parsed]
      match program.encode with
      | .error failure => session.raise events failure
      | .ok output =>
          let encoded :=
            [Event.generated output.object.length output.listing.length program.segment,
              Event.encoded output.object.length]
          (session.keep program output, { events := events ++ encoded, outcome := .ok output })

def assembleText (session : Session) (text : String) : Session × Traced Output :=
  let (next, run) := session.assembleSource (.ofText text)
  (next, { run with events := .readingText :: run.events })

def assembleFile (session : Session) (directory : Directory) (path : Path) :
    Session × Traced Output :=
  match directory.read path with
  | .error failure =>
      (session, { events := [.readingFile path.text], outcome := .error failure })
  | .ok content =>
      let (next, run) := session.assembleSource (.ofBytes content)
      (next, { run with events := .readingFile path.text :: run.events })

/-- The program of the last assembly. -/
def requireProgram (session : Session) : Except Failure Program :=
  match session.program with
  | some program => .ok program
  | none => .error (.misuse .nothingAssembled)

/-- The output of the last assembly. -/
def requireOutput (session : Session) : Except Failure Output :=
  match session.output with
  | some output => .ok output
  | none => .error (.misuse .nothingAssembled)

def productText (session : Session) : Product → Except Failure String
  | .object => session.requireOutput.map Output.objectText
  | .listing => session.requireOutput.map Output.listingText
  | .dump => session.requireProgram.map Program.dump

/-- Write a text to a file that is called `shown` in messages. -/
def writeText (directory : Directory) (product : Product) (path : Path) (shown text : String) :
    Directory × Traced String :=
  match directory.write path (Text.Utf8.encode text.toList) with
  | .error failure => (directory, Traced.fail failure)
  | .ok written => (written, { events := [.wrote product shown], outcome := .ok text })

/-- Write one of the files.  The file of a dump is opened before the program is
asked for, so without a program an empty file is left. -/
def write (session : Session) (directory : Directory) (product : Product) (path : Path)
    (shown : String) : Directory × Traced String :=
  match session.productText product, product with
  | .ok text, _ => writeText directory product path shown text
  | .error failure, .dump =>
      match directory.write path [] with
      | .error unopened => (directory, Traced.fail unopened)
      | .ok opened => (opened, Traced.fail failure)
  | .error failure, _ => (directory, Traced.fail failure)

end Session

end Lc3Assembler
