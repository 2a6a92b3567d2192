import Lc3Assembler.CommandLine.Exit
import Lc3Assembler.Session
import Lc3Assembler.Trace.Wording

/-!
# Runs of the command line

A run is a function of the directory it starts in, the environment, the words of
the command line and the way in which these are understood.  It gives the exit
status, what it prints, and the directory it leaves behind.  What a run says in its
own name is plain text; the log and the progress of the assembly are passed on as
they are.
-/

namespace Lc3Assembler.CommandLine

/-- What a run leaves behind. -/
structure Outcome where
  status : ExitStatus
  printed : List String := []
  complaints : List String := []
  directory : Directory
  deriving DecidableEq, Repr

namespace Outcome

/-- The text on the output stream. -/
def output (outcome : Outcome) : String :=
  Text.unlines outcome.printed

/-- The text on the error stream. -/
def errors (outcome : Outcome) : String :=
  Text.unlines outcome.complaints

end Outcome

/-- The line that shows how the program is called. -/
def usageLine : String :=
  "Usage: lc3asm [OPTIONS] INPUT_FILE"

/-- The answer to a request for the version. -/
def versionText : String :=
  "lc3asm, version 1.0.0"

/-- The answer to a request for help. -/
def helpLines : List String :=
  [usageLine,
   "",
   "  Assemble LC-3 source code.",
   "",
   "  INPUT_FILE is the assembly source file to assemble.",
   "",
   "  The assembler produces a text object file for the linker/loader and a listing",
   "  showing the address, contents and source of every word.",
   "",
   "  Examples:",
   "      lc3asm demo.asm              # Outputs demo.obj and demo.lst",
   "      lc3asm demo.asm -o out.obj   # Specify object file",
   "      lc3asm -d demo.asm           # Also write demo.dump",
   "",
   "Options:",
   "  -o, --output FILE               Output object file (default: INPUT.obj)",
   "  -l, --listing FILE              Output listing file (default: INPUT.lst)",
   "  -d, --dump                      Write the resolved program to INPUT.dump",
   "  -M, --max-records INTEGER RANGE",
   "                                  Stop after this many records (default: 2000)",
   "                                  [x>=1]",
   "  -s, --max-symbols INTEGER RANGE",
   "                                  Symbol table capacity (default: 100)  [x>=1]",
   "  -L, --max-literals INTEGER RANGE",
   "                                  Literal pool capacity (default: 50)  [x>=1]",
   "  -v, --verbose                   Verbose output",
   "  --version                       Show the version and exit.",
   "  --help                          Show this message and exit."]

/-- The lines that a refused command line is answered with. -/
def usageErrorLines (error : UsageError) : List String :=
  let usage := if error.showsUsage then [usageLine, "Try 'lc3asm --help' for help.", ""] else []
  usage ++ [Text.plain ("Error: " ++ error.message)]

/-- What a message calls a file. -/
def productName : Product → String
  | .object => "object"
  | .listing => "listing"
  | .dump => "dump"

/-- The files an assembly writes, in order. -/
def targets (input : Path) (settings : Settings) : List (Product × Path) :=
  [(.object, settings.output.getD (input.withSuffix ".obj")),
   (.listing, settings.listing.getD (input.withSuffix ".lst"))]
    ++ (if settings.dump then [(.dump, input.withSuffix ".dump")] else [])

/-- What writing files leaves behind. -/
structure Writing where
  directory : Directory
  events : List Event := []
  trouble : Option Trouble := none
  deriving DecidableEq, Repr

/-- The trouble of a file that was not written. -/
def writingTrouble (product : Product) (path : Path) : Failure → Trouble
  | .refused refusal => .unwritten (productName product) path.text refusal
  | failure => .ofFailure failure

/-- Write files in order, up to the first that cannot be written. -/
def writeAll (session : Session) (directory : Directory) : List (Product × Path) → Writing
  | [] => { directory := directory }
  | (product, path) :: rest =>
      let (next, written) := session.write directory product path path.text
      match written.outcome with
      | .error failure =>
          { directory := next
            events := written.events
            trouble := some (writingTrouble product path failure) }
      | .ok _ =>
          let others := writeAll session next rest
          { others with events := written.events ++ others.events }

/-- The limits as a verbose run announces them. -/
def limitsLine (limits : Limits) : String :=
  "Limits: " ++ Text.decimal limits.maxSymbols ++ " symbols, "
    ++ Text.decimal limits.maxLiterals ++ " literals, "
    ++ Text.decimal limits.maxRecords ++ " records"

def closingLines (program : Program) : List String :=
  ["Assembly complete: segment " ++ program.segment ++ ", " ++ Text.decimal program.length
      ++ " words at x" ++ Text.hexUpper 4 program.firstAddress,
   "Defined " ++ Text.decimal program.symbols.length ++ " symbols"]

/-- How a run ends that met a trouble. -/
def stopped (trouble : Trouble) (printed complaints : List String) (directory : Directory) :
    Outcome :=
  { status := trouble.status
    printed
    complaints := complaints ++ [trouble.line "Assembly"]
    directory }

/-- Write the files of an assembled session and close the run. -/
def finish (session : Session) (input : Path) (settings : Settings)
    (printed complaints : List String) (directory : Directory) : Outcome :=
  let warnings := session.report.warnings.map Diagnostic.text
  let complaints := complaints ++ warnings.map Text.plain
  let writing := writeAll session directory (targets input settings)
  let printed := printed ++ progressLines settings.verbose writing.events
  match writing.trouble, session.program with
  | some trouble, _ => stopped trouble printed complaints writing.directory
  | none, some program =>
      let closing := if settings.verbose then closingLines program else []
      { status := .success
        printed := printed ++ closing.map Text.plain
        complaints
        directory := writing.directory }
  | none, none =>
      stopped (.ofFailure (.misuse .nothingAssembled)) printed complaints writing.directory

def runAssembly (directory : Directory) (environment : Limits.Environment) (input : Path)
    (settings : Settings) : Outcome :=
  let (base, ignored) := Limits.ofEnvironment environment
  let limits := settings.limits base
  let verbose := settings.verbose
  let complaints := logLines verbose (ignored.map Event.ignored)
  match Session.start limits with
  | .error rule =>
      stopped (.badValue rule.message (some "LC3ASM_* environment")) [] complaints directory
  | .ok session =>
      let (session, assembled) := session.assembleFile directory input
      let printed :=
        (if verbose then [limitsLine limits] else []) ++ progressLines verbose assembled.events
      let complaints := complaints ++ logLines verbose assembled.events
      match assembled.outcome with
      | .error failure => stopped (.ofFailure failure) printed complaints directory
      | .ok _ => finish session input settings printed complaints directory

/-- How the words of a command line are understood in a directory: as a request, or not at
all.  `Request.ofWords` is the one that is shipped. -/
abbrev OptionParser := Directory → List String → Except UsageError Request

/-- Run a command line. -/
def run (parse : OptionParser) (directory : Directory) (environment : Limits.Environment)
    (words : List String) : Outcome :=
  match parse directory words with
  | .error error =>
      { status := .invalidArguments, complaints := usageErrorLines error, directory }
  | .ok .version => { status := .success, printed := [versionText], directory }
  | .ok .help => { status := .success, printed := helpLines, directory }
  | .ok (.assembly input settings) => runAssembly directory environment input settings

end Lc3Assembler.CommandLine
