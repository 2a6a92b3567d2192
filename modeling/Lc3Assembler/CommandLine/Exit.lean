import Lc3Assembler.CommandLine.Request
import Lc3Assembler.Failure
import Lc3Assembler.Text.Terminal

/-!
# How a run ends

A run ends well or with one trouble, which gives the exit status and the last
line on the error stream.  A file that cannot be written is a failed build and
not a wrong argument, since its source was assembled.
-/

namespace Lc3Assembler.CommandLine

/-- The statuses a run can exit with. -/
inductive ExitStatus where
  | success
  /-- The source was rejected or an output file could not be written. -/
  | buildError
  /-- An option is wrong or the input cannot be read. -/
  | invalidArguments
  /-- Anything that was not foreseen. -/
  | internalError
  deriving DecidableEq, Repr

/-- The number handed to the system. -/
def ExitStatus.number : ExitStatus → UInt8
  | .success => 0
  | .buildError => 1
  | .invalidArguments => 2
  | .internalError => 3

/-- What ended a run. -/
inductive Trouble where
  /-- The assembler rejected its source with a message. -/
  | rejected (message : String)
  /-- A file of some kind could not be written. -/
  | unwritten (kind path : String) (refusal : Refusal)
  /-- A value is wrong, of the parameter that the hint names. -/
  | badValue (message : String) (hint : Option String)
  /-- The system refused a file. -/
  | refused (refusal : Refusal)
  /-- Anything else. -/
  | unforeseen (message : String)
  deriving DecidableEq, Repr

namespace Trouble

def ofFailure : Failure → Trouble
  | .rejected error => .rejected error.text
  | .misuse rule => .unforeseen rule.message
  | .refused refusal => .refused refusal
  | .undecodable fault => .unforeseen fault.message
  | .tooDeep => .unforeseen Failure.tooDeep.message

def status : Trouble → ExitStatus
  | .rejected _ => .buildError
  | .unwritten _ _ _ => .buildError
  | .badValue _ _ => .invalidArguments
  | .refused refusal =>
      match refusal.kind with
      | .notFound | .permission | .isDirectory => .invalidArguments
      | .notDirectory | .tooLong | .other => .buildError
  | .unforeseen _ => .internalError

/-- The words in front of a rejection.  `activity` names what was done, if that
is known. -/
def heading (activity : String) : String :=
  if activity.isEmpty then "Error: " else activity ++ " error: "

/-- The text on the error stream. -/
def text (activity : String) : Trouble → String
  | .rejected message => heading activity ++ message
  | .unwritten kind path refusal =>
      "Error: cannot write " ++ kind ++ " file '" ++ path ++ "': " ++ refusal.reason
  | .badValue message none => "Error: Invalid value: " ++ message
  | .badValue message (some hint) => "Error: Invalid value for " ++ hint ++ ": " ++ message
  | .refused refusal =>
      match refusal.kind with
      | .notFound | .permission | .isDirectory => "Error: " ++ refusal.message
      | .notDirectory | .tooLong | .other => "I/O error: " ++ refusal.message
  | .unforeseen message => "Internal error: " ++ message

/-- The line that is shown, as plain text. -/
def line (activity : String) (trouble : Trouble) : String :=
  Text.plain (trouble.text activity)

end Trouble

/-- No trouble is mistaken for success. -/
theorem Trouble.status_ne_success (trouble : Trouble) : trouble.status ≠ .success := by
  cases trouble with
  | refused refusal => cases kind : refusal.kind <;> simp [status, kind]
  | _ => simp [status]

/-- What the system refuses is foreseen. -/
theorem Trouble.status_refused_ne_internalError (refusal : Refusal) :
    (Trouble.refused refusal).status ≠ .internalError := by
  cases kind : refusal.kind <;> simp [status, kind]

end Lc3Assembler.CommandLine
