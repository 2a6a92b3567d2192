import Lc3Assembler.Text.Quoted
import Lc3Assembler.Text.Similarity

/-!
# Arguments

The words of a command line are read from left to right into the switches that
were given, with their values, and the words that belong to no switch.  Switches
may stand anywhere; `--` ends them.
-/

namespace Lc3Assembler.CommandLine

/-- The switches of the command line. -/
inductive Switch where
  | output
  | listing
  | dump
  | maxRecords
  | maxSymbols
  | maxLiterals
  | verbose
  | version
  | help
  deriving DecidableEq, Repr

namespace Switch

def all : List Switch :=
  [.output, .listing, .dump, .maxRecords, .maxSymbols, .maxLiterals, .verbose, .version, .help]

/-- The letter of a switch, written after one dash. -/
def letter? : Switch → Option Char
  | .output => some 'o'
  | .listing => some 'l'
  | .dump => some 'd'
  | .maxRecords => some 'M'
  | .maxSymbols => some 's'
  | .maxLiterals => some 'L'
  | .verbose => some 'v'
  | .version => none
  | .help => none

/-- The word of a switch, written after two dashes. -/
def word : Switch → String
  | .output => "output"
  | .listing => "listing"
  | .dump => "dump"
  | .maxRecords => "max-records"
  | .maxSymbols => "max-symbols"
  | .maxLiterals => "max-literals"
  | .verbose => "verbose"
  | .version => "version"
  | .help => "help"

def takesValue : Switch → Bool
  | .output | .listing | .maxRecords | .maxSymbols | .maxLiterals => true
  | .dump | .verbose | .version | .help => false

/-- Whether the switch is answered before any value is looked at. -/
def answersAtOnce : Switch → Bool
  | .version | .help => true
  | _ => false

def shortName (letter : Char) : String :=
  String.ofList ['-', letter]

/-- How the word is written. -/
def longName (switch : Switch) : String :=
  "--" ++ switch.word

/-- The names of a switch as a message shows them. -/
def shown (switch : Switch) : String :=
  match switch.letter? with
  | some letter => Text.quoted (shortName letter) ++ " / " ++ Text.quoted switch.longName
  | none => Text.quoted switch.longName

def ofLetter? (letter : Char) : Option Switch :=
  all.find? fun switch => switch.letter? = some letter

/-- The switch of a word with its dashes. -/
def ofLongName? (name : String) : Option Switch :=
  all.find? fun switch => switch.longName = name

theorem mem_all (switch : Switch) : switch ∈ all := by
  cases switch <;> decide

end Switch

/-- The words of switches that are similar to a name. -/
def Switch.similarTo (name : String) : List String :=
  Text.suggestions name (all.map longName)

/-- What the words of a command line can violate before they are interpreted. -/
inductive ArgumentError where
  /-- A letter of no switch. -/
  | unknownLetter (letter : Char)
  /-- A word with two dashes of no switch. -/
  | unknownWord (name : String)
  /-- A switch at the end whose value is missing. -/
  | missingValue (name : String)
  /-- A value for a switch that takes none. -/
  | unexpectedValue (name : String)
  deriving DecidableEq, Repr

namespace ArgumentError

/-- The wording of an offer of other names, behind the message it belongs to. -/
def offer (names : List String) : String :=
  match names with
  | [] => ""
  | [name] => " Did you mean " ++ Text.quoted name ++ "?"
  | _ => " (Did you mean one of: " ++ ", ".intercalate (names.map Text.quoted) ++ "?)"

/-- The wording of an error.  Names that are similar to an unknown word are
offered. -/
def message : ArgumentError → String
  | .unknownLetter letter => "No such option " ++ Text.quoted (Switch.shortName letter) ++ "."
  | .unknownWord name =>
      "No such option " ++ Text.quoted name ++ "." ++ offer (Switch.similarTo name)
  | .missingValue name => "Option " ++ Text.quoted name ++ " requires an argument."
  | .unexpectedValue name => "Option " ++ Text.quoted name ++ " does not take a value."

end ArgumentError

/-- A switch with the value it was given; the value of a switch that takes none
is empty. -/
structure Given where
  switch : Switch
  value : String := ""
  deriving DecidableEq, Repr

/-- A switch that waits for its value, and the name it was called by. -/
structure Pending where
  switch : Switch
  name : String
  deriving DecidableEq, Repr

/-- The words of a command line, told apart. -/
structure Arguments where
  given : List Given := []
  words : List String := []
  deriving DecidableEq, Repr

namespace Arguments

/-- Put switches in front. -/
def withGiven (given : List Given) (arguments : Arguments) : Arguments :=
  { arguments with given := given ++ arguments.given }

/-- Put a word in front. -/
def withWord (word : String) (arguments : Arguments) : Arguments :=
  { arguments with words := word :: arguments.words }

/-- The switches of a run of letters.  The first that takes a value takes the
rest of the run, or waits for the next word. -/
def readLetters : List Char → Except ArgumentError (List Given × Option Pending)
  | [] => .ok ([], none)
  | letter :: rest =>
      match Switch.ofLetter? letter with
      | none => .error (.unknownLetter letter)
      | some switch =>
          if switch.takesValue then
            if rest.isEmpty then .ok ([], some { switch, name := Switch.shortName letter })
            else .ok ([{ switch, value := String.ofList rest }], none)
          else
            match readLetters rest with
            | .ok (given, pending) => .ok ({ switch := switch } :: given, pending)
            | .error error => .error error

/-- The name of a word before its first `=`, and the value after it. -/
def splitValue (word : List Char) : List Char × Option (List Char) :=
  let name := word.takeWhile (· != '=')
  match word.dropWhile (· != '=') with
  | [] => (name, none)
  | _ :: value => (name, some value)

/-- The switches of one word that starts with a dash. -/
def readSwitches (word : String) : Except ArgumentError (List Given × Option Pending) :=
  let (front, value) := splitValue word.toList
  let name := String.ofList front
  match Switch.ofLongName? name with
  | some switch =>
      match switch.takesValue, value with
      | true, some value => .ok ([{ switch, value := String.ofList value }], none)
      | true, none => .ok ([], some { switch := switch, name := name })
      | false, some _ => .error (.unexpectedValue name)
      | false, none => .ok ([{ switch := switch }], none)
  | none =>
      match word.toList with
      | '-' :: '-' :: _ => .error (.unknownWord name)
      | letters => readLetters letters.tail

/-- Whether a word is read as switches; a single dash is not. -/
def startsSwitch (word : String) : Bool :=
  match word.toList with
  | '-' :: _ :: _ => true
  | _ => false

/-- Read the words from left to right, after a switch that may wait for its
value. -/
def scan : Option Pending → List String → Except ArgumentError Arguments
  | none, [] => .ok {}
  | some pending, [] => .error (.missingValue pending.name)
  | some pending, word :: rest =>
      (scan none rest).map (withGiven [{ switch := pending.switch, value := word }])
  | none, word :: rest =>
      if word = "--" then .ok { words := rest }
      else if startsSwitch word then
        match readSwitches word with
        | .error error => .error error
        | .ok (given, pending) => (scan pending rest).map (withGiven given)
      else (scan none rest).map (withWord word)

/-- Read a command line. -/
def read (words : List String) : Except ArgumentError Arguments :=
  scan none words

def lastValue (given : List Given) (switch : Switch) : Option String :=
  ((given.filter fun entry => entry.switch = switch).getLast?).map Given.value

/-- Every given switch once, in order of first use, with its last value. -/
def settled (given : List Given) : List Given :=
  (given.map Given.switch).eraseDups.filterMap fun switch =>
    (lastValue given switch).map fun value => { switch := switch, value := value }

end Arguments

end Lc3Assembler.CommandLine
