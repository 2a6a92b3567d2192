import Lc3Assembler.CommandLine.Arguments
import Lc3Assembler.Directory
import Lc3Assembler.Limits

/-!
# Requests

The arguments of a command line ask for the version, for help, or for an
assembly.  Values are checked in the order in which their switches first appear,
then the input file, and last that nothing is left over.
-/

namespace Lc3Assembler.CommandLine

/-- What an assembly was asked to do besides reading its input. -/
structure Settings where
  output : Option Path := none
  listing : Option Path := none
  dump : Bool := false
  maxRecords : Option Int := none
  maxSymbols : Option Int := none
  maxLiterals : Option Int := none
  verbose : Bool := false
  deriving DecidableEq, Repr

/-- What a command line asks for. -/
inductive Request where
  | version
  | help
  | assembly (input : Path) (settings : Settings)
  deriving DecidableEq, Repr

/-- The parameters whose values are checked. -/
inductive Parameter where
  | input
  | option (switch : Switch)
  deriving DecidableEq, Repr

/-- What a message calls a parameter. -/
def Parameter.shown : Parameter → String
  | .input => "'INPUT_FILE'"
  | .option switch => switch.shown

/-- Why a value is refused. -/
inductive ValueFault where
  | missingFile (path : String)
  | directory (path : String)
  | unreadable (path : String)
  | notInteger (text : String)
  | belowOne (value : Int)
  deriving DecidableEq, Repr

/-- The wording of a refused value. -/
def ValueFault.message : ValueFault → String
  | .missingFile path => "File " ++ Text.quoted path ++ " does not exist."
  | .directory path => "File " ++ Text.quoted path ++ " is a directory."
  | .unreadable path => "File " ++ Text.quoted path ++ " is not readable."
  | .notInteger text => Text.quoted text ++ " is not a valid integer range."
  | .belowOne value => Text.decimal value ++ " is not in the range x>=1."

/-- Why a command line is refused. -/
inductive UsageError where
  | argument (error : ArgumentError)
  | missingInput
  | value (parameter : Parameter) (error : ValueFault)
  | leftOver (words : List String)
  deriving DecidableEq, Repr

namespace UsageError

def message : UsageError → String
  | .argument error => error.message
  | .missingInput => "Missing argument 'INPUT_FILE'."
  | .value parameter error => "Invalid value for " ++ parameter.shown ++ ": " ++ error.message
  | .leftOver words =>
      "Got unexpected extra argument" ++ (if words.length = 1 then "" else "s") ++ " ("
        ++ " ".intercalate words ++ ")"

/-- Whether the usage is shown above the message.  Where only a value is missing
or too many, the switch itself was right. -/
def showsUsage : UsageError → Bool
  | .argument (.missingValue _) => false
  | .argument (.unexpectedValue _) => false
  | _ => true

end UsageError

/-- A file that is there has to be readable, whatever it is named for. -/
def givenFile (directory : Directory) (text : String) : Except ValueFault Path :=
  if directory.permits (.ofString text) then .ok (.ofString text) else .error (.unreadable text)

namespace Settings

/-- A file to be written; it need not exist, and it must not be a directory. -/
def outputPath (directory : Directory) (text : String) : Except ValueFault Path :=
  match directory.lookup text with
  | some .directory => .error (.directory text)
  | some (.file _) => givenFile directory text
  | none => .ok (.ofString text)

/-- A capacity: an integer from one on. -/
def capacity (text : String) : Except ValueFault Int :=
  match Text.readInteger? text with
  | none => .error (.notInteger text)
  | some value => if value < 1 then .error (.belowOne value) else .ok value

def apply (directory : Directory) (settings : Settings) (entry : Given) :
    Except ValueFault Settings :=
  match entry.switch with
  | .output =>
      (outputPath directory entry.value).map fun path => { settings with output := some path }
  | .listing =>
      (outputPath directory entry.value).map fun path => { settings with listing := some path }
  | .maxRecords =>
      (capacity entry.value).map fun value => { settings with maxRecords := some value }
  | .maxSymbols =>
      (capacity entry.value).map fun value => { settings with maxSymbols := some value }
  | .maxLiterals =>
      (capacity entry.value).map fun value => { settings with maxLiterals := some value }
  | .dump => .ok { settings with dump := true }
  | .verbose => .ok { settings with verbose := true }
  | .version | .help => .ok settings

/-- Settings with switches applied in order; the first refused value is to
blame. -/
def applyAll (directory : Directory) (settings : Settings) :
    List Given → Except UsageError Settings
  | [] => .ok settings
  | entry :: rest =>
      match settings.apply directory entry with
      | .error error => .error (.value (.option entry.switch) error)
      | .ok next => next.applyAll directory rest

/-- Limits with those replaced that the settings give. -/
def limits (settings : Settings) (base : Limits) : Limits :=
  { maxSymbols := settings.maxSymbols.getD base.maxSymbols
    maxLiterals := settings.maxLiterals.getD base.maxLiterals
    maxRecords := settings.maxRecords.getD base.maxRecords
    spareCalls := base.spareCalls }

end Settings

namespace Request

/-- The file to be read; it has to exist. -/
def inputPath (directory : Directory) (text : String) : Except ValueFault Path :=
  match directory.lookup text with
  | none => .error (.missingFile text)
  | some .directory => .error (.directory text)
  | some (.file _) => givenFile directory text

/-- The answer that the first switch of its kind asks for at once. -/
def immediate? (given : List Given) : Option Request :=
  match given.find? fun entry => entry.switch.answersAtOnce with
  | some { switch := .version, .. } => some .version
  | some { switch := .help, .. } => some .help
  | _ => none

def assemblyOf (directory : Directory) (arguments : Arguments) : Except UsageError Request :=
  match Settings.applyAll directory {} (Arguments.settled arguments.given) with
  | .error error => .error error
  | .ok settings =>
      match arguments.words with
      | [] => .error .missingInput
      | word :: others =>
          match inputPath directory word with
          | .error error => .error (.value .input error)
          | .ok input =>
              if others.isEmpty then .ok (.assembly input settings)
              else .error (.leftOver others)

/-- What the words of a command line ask for in a directory. -/
def ofWords (directory : Directory) (words : List String) : Except UsageError Request :=
  match Arguments.read words with
  | .error error => .error (.argument error)
  | .ok arguments =>
      match immediate? arguments.given with
      | some request => .ok request
      | none => assemblyOf directory arguments

end Request

end Lc3Assembler.CommandLine
