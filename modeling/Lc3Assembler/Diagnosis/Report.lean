import Lc3Assembler.Diagnosis.Cause

/-!
# Warnings and reports

A full table or the record ceiling is only a warning, and the run goes on.  A
report keeps the errors and the warnings of a run, in order.
-/

namespace Lc3Assembler

/-- How a run goes on after a diagnostic. -/
inductive Severity where
  | warning
  | fatal
  deriving DecidableEq, Repr

/-- One reported condition. -/
structure Diagnostic where
  message : String
  code : Code
  line : Option Int
  severity : Severity
  deriving DecidableEq, Repr

namespace Diagnostic

def text (diagnostic : Diagnostic) : String :=
  let label :=
    match diagnostic.severity with
    | .warning => "WARNING"
    | .fatal => "ERROR"
  let place :=
    match diagnostic.line with
    | some line => " (line " ++ Text.decimal line ++ ")"
    | none => ""
  "[" ++ label ++ " " ++ diagnostic.code.digits ++ "] " ++ diagnostic.message ++ place

def symbolTableFull (limit : Int) (label : String) (line : Int) : Diagnostic :=
  { message :=
      "maximum number of symbols (" ++ Text.decimal limit ++ ") reached; '" ++ label
        ++ "' not added"
    code := .symbolTableFull
    line := some line
    severity := .warning }

def literalPoolFull (limit : Int) (literal : String) (line : Int) : Diagnostic :=
  { message :=
      "maximum number of literals (" ++ Text.decimal limit ++ ") reached; '" ++ literal
        ++ "' not added"
    code := .literalPoolFull
    line := some line
    severity := .warning }

/-- The record ceiling is reached. -/
def recordLimit (limit : Int) (line : Int) : Diagnostic :=
  { message :=
      "maximum number of records (" ++ Text.decimal limit ++ ") reached before .END"
    code := .recordLimit
    line := some line
    severity := .warning }

end Diagnostic

/-- The diagnostics of a run. -/
structure Report where
  errors : List AssemblyError := []
  warnings : List Diagnostic := []
  deriving DecidableEq, Repr

namespace Report

def addError (report : Report) (error : AssemblyError) : Report :=
  { report with errors := report.errors ++ [error] }

def addWarning (report : Report) (diagnostic : Diagnostic) : Report :=
  { report with warnings := report.warnings ++ [diagnostic] }

/-- Drop all diagnostics. -/
def clear (report : Report) : Report :=
  { report with errors := [], warnings := [] }

/-- A count with its noun in the singular or the plural. -/
def counted (count : Nat) (noun : String) : String :=
  Text.decimal count ++ " " ++ noun ++ (if count = 1 then "" else "s")

/-- All diagnostics, one after the other, and a summary line. -/
def text (report : Report) : String :=
  "\n".intercalate
    (report.errors.map AssemblyError.text ++ report.warnings.map Diagnostic.text
      ++ [counted report.errors.length "error" ++ ", "
        ++ counted report.warnings.length "warning"])

end Report

end Lc3Assembler
