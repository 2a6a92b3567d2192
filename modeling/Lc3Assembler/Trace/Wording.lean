import Lc3Assembler.Trace

/-!
# The wording of events

An event is shown in up to two ways: as a progress message for the user, or as
a log entry with a level and the part of the assembler it comes from.
-/

namespace Lc3Assembler

/-- How much a log entry matters. -/
inductive Level where
  | debug
  | info
  | warning
  deriving DecidableEq, Repr

/-- What a log line calls the level. -/
def Level.text : Level → String
  | .debug => "DEBUG"
  | .info => "INFO"
  | .warning => "WARNING"

/-- The parts of the assembler that log. -/
inductive Channel where
  | reading
  | encoding
  | diagnosis
  | settings
  deriving DecidableEq, Repr

/-- What a log line calls the part. -/
def Channel.text : Channel → String
  | .reading => "lc3_sdk.assembler.parser"
  | .encoding => "lc3_sdk.assembler.codegen"
  | .diagnosis => "lc3_sdk.errors"
  | .settings => "lc3_sdk.config"

/-- One entry of the log. -/
structure LogEntry where
  level : Level
  channel : Channel
  message : String
  deriving DecidableEq, Repr

def LogEntry.text (entry : LogEntry) : String :=
  entry.level.text ++ ": " ++ entry.channel.text ++ ": " ++ entry.message

namespace Event

def log? : Event → Option LogEntry
  | .segmentOpened segment address relocatable =>
      some
        { level := .debug
          channel := .reading
          message :=
            "segment " ++ segment ++ " at x" ++ Text.hexUpper 4 address
              ++ (if relocatable then " (relocatable)" else "") }
  | .symbolDefined line name value =>
      some
        { level := .debug
          channel := .reading
          message :=
            "line " ++ Text.decimal line ++ ": symbol " ++ name ++ " = x"
              ++ Text.hexUpper 4 (wordOf value) }
  | .literalPooled line text =>
      some
        { level := .debug
          channel := .reading
          message := "line " ++ Text.decimal line ++ ": literal " ++ text }
  | .segmentClosed segment length literals pool exec =>
      some
        { level := .debug
          channel := .reading
          message :=
            "segment " ++ segment ++ ": length x" ++ Text.hexUpper 4 length ++ ", "
              ++ Text.decimal literals ++ " literals at x" ++ Text.hexUpper 4 pool
              ++ ", exec x" ++ Text.hexUpper 4 exec }
  | .warned diagnostic =>
      some { level := .info, channel := .diagnosis, message := diagnostic.text }
  | .generated objectRecords listingRows segment =>
      some
        { level := .debug
          channel := .encoding
          message :=
            "generated " ++ Text.decimal objectRecords ++ " object records, "
              ++ Text.decimal listingRows ++ " listing lines for " ++ segment }
  | .failed error =>
      some
        { level := .debug
          channel := .diagnosis
          message :=
            "fatal: " ++ error.cause.message ++ " (code " ++ Text.decimal error.code.number
              ++ ")" }
  | .ignored setting =>
      some
        { level := .warning
          channel := .settings
          message :=
            "ignoring non-integer " ++ setting.name ++ "=" ++ Text.quoted setting.value }
  | _ => none

def progress? : Event → Option String
  | .readingText => some "Assembling from string..."
  | .readingFile path => some ("Assembling " ++ path ++ "...")
  | .parsed records symbols literals =>
      some
        ("Parsed " ++ Text.decimal records ++ " records, " ++ Text.decimal symbols
          ++ " symbols, " ++ Text.decimal literals ++ " literals")
  | .encoded objectRecords =>
      some ("Generated " ++ Text.decimal objectRecords ++ " object records")
  | .wrote .object path => some ("Wrote " ++ path)
  | .wrote .listing path => some ("Wrote listing to " ++ path)
  | .wrote .dump path => some ("Wrote program dump to " ++ path)
  | _ => none

end Event

/-- The log lines of some events.  Warnings of the log are always shown, the
rest only in a verbose run. -/
def logLines (verbose : Bool) (events : List Event) : List String :=
  (events.filterMap Event.log?).filterMap fun entry =>
    if verbose || entry.level = .warning then some entry.text else none

/-- The progress messages of some events, shown in a verbose run. -/
def progressLines (verbose : Bool) (events : List Event) : List String :=
  if verbose then events.filterMap Event.progress? else []

end Lc3Assembler
