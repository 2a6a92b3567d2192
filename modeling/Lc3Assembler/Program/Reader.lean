import Lc3Assembler.Program.Draft

/-!
# Readers

A reader is used for one source after the other.  It hands its warnings to a
report that outlives the run, and keeps a working state: the draft, the number of
the line it is at, and whether the segment has ended.  The working state is set
back before a source is read, so what an earlier run left there is never seen.
-/

namespace Lc3Assembler

/-- The limits, the report and the working state of a reader. -/
structure Reader where
  limits : Limits
  report : Report := {}
  draft : Draft := {}
  number : Nat := 0
  ended : Bool := false
  deriving DecidableEq, Repr

namespace Reader

/-- Set the working state back. -/
def reset (reader : Reader) : Reader :=
  { reader with draft := {}, number := 0, ended := false }

/-- Go on to a line. -/
def reach (reader : Reader) (number : Nat) : Reader :=
  { reader with number }

/-- Report warnings, in order. -/
def warn (reader : Reader) (warnings : List Diagnostic) : Reader :=
  { reader with report := warnings.foldl Report.addWarning reader.report }

/-- The segment has ended with a program. -/
def finish (reader : Reader) (program : Program) : Reader :=
  { reader with draft := { reader.draft with program }, ended := true }

/-- End the segment before its last record. -/
def close (reader : Reader) : Reader × Traced Program :=
  let run := reader.draft.close none
  match run.outcome with
  | .error _ => (reader, run)
  | .ok program => (reader.finish program, run)

/-- Take in one record.  Of a record that is refused nothing stays in the draft, as no
run goes on from there. -/
def accept (reader : Reader) (line : SourceLine) : Reader × Traced Unit :=
  let run := reader.draft.accept reader.limits line
  let warned := reader.warn (warningsOf run.events)
  match run.outcome with
  | .error failure => (warned, { events := run.events, outcome := .error failure })
  | .ok (.done program) => (warned.finish program, { events := run.events, outcome := .ok () })
  | .ok (.more next) =>
      ({ warned with draft := next }, { events := run.events, outcome := .ok () })

/-- Read the lines that are left after the first `count` ones. -/
def readFrom (ending : Ending) : Nat → Reader → List String → Reader × Traced Program
  | _, reader, [] => (reader, .fail (reader.draft.exhausted reader.number ending))
  | count, reader, raw :: rest =>
      let reader := reader.reach (count + 1)
      let line := Text.chomp raw
      if SourceLine.isComment line then readFrom ending (count + 1) reader rest
      else if reader.limits.maxRecords ≤ reader.draft.program.records.length then
        let warning := Diagnostic.recordLimit reader.limits.maxRecords reader.number
        let (closed, run) := (reader.warn [warning]).close
        (closed, run.after [.warned warning])
      else
        match SourceLine.split reader.limits.spareCalls reader.number line with
        | .error failure => (reader, .fail failure)
        | .ok parsed =>
            let (next, taken) := reader.accept parsed
            match taken.outcome with
            | .error failure => (next, { events := taken.events, outcome := .error failure })
            | .ok () =>
                if next.ended then
                  (next, { events := taken.events, outcome := .ok next.draft.program })
                else
                  let (last, run) := readFrom ending (count + 1) next rest
                  (last, run.after taken.events)

/-- Read a source into a frozen program. -/
def read (reader : Reader) (source : Source) : Reader × Traced Program :=
  readFrom source.ending 0 reader.reset source.lines

/-- The reader after some sources, whatever came of them. -/
def readAll (reader : Reader) (sources : List Source) : Reader :=
  sources.foldl (fun current source => (current.read source).1) reader

@[simp] theorem limits_reach (reader : Reader) (number : Nat) :
    (reader.reach number).limits = reader.limits := rfl

@[simp] theorem draft_reach (reader : Reader) (number : Nat) :
    (reader.reach number).draft = reader.draft := rfl

@[simp] theorem number_reach (reader : Reader) (number : Nat) :
    (reader.reach number).number = number := rfl

end Reader

end Lc3Assembler
