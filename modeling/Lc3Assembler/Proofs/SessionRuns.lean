import Lc3Assembler.Proofs.Runs

/-!
# What readers and sessions do in place

A reader reports each warning while it reads, and a session drops its results, lends its
report to a reader, adds the error that ends a run and keeps the results only when nothing
can fail any more.  Neither shows in the end: a reader gives and reports what a run does, and
a session gives and is left with what `Session.ofRun` makes of the run of `assemble`.
-/

namespace Lc3Assembler

/-! ### Assemblies -/

/-- Only reading warns. -/
theorem warnings_assemble (limits : Limits) (source : Source) :
    (assemble limits source).warnings = (Program.read limits source).warnings := by
  apply Traced.warnings_bind_of_silent
  intro program
  cases encoded : program.encode with
  | error failure => rfl
  | ok output => rfl

/-- The output of an assembly. -/
theorem outcome_assemble (limits : Limits) (source : Source) :
    Prod.snd <$> (assemble limits source).outcome =
      (Program.read limits source).outcome >>= Program.encode := by
  simp only [assemble, Traced.outcome_bind, Traced.outcome_lift, Traced.outcome_note, ok_bind,
    Traced.outcome_pure]
  cases (Program.read limits source).outcome with
  | error failure => rfl
  | ok program =>
      simp only [ok_bind]
      cases program.encode with
      | error failure => rfl
      | ok output => rfl

/-- What an assembly gives, and the session it leaves, by what its run comes to. -/
def Session.ofRun (limits : Limits) (run : Traced (Program × Output)) :
    Session × Traced Output :=
  match run.outcome with
  | .ok (program, output) =>
      ({ limits, program := some program, output := some output,
         report := { warnings := run.warnings } },
        { events := run.events, outcome := .ok output })
  | .error (.rejected error) =>
      ({ limits, report := { errors := [error], warnings := run.warnings } },
        { events := run.events ++ [.failed error], outcome := .error (.rejected error) })
  | .error failure =>
      ({ limits, report := { warnings := run.warnings } },
        { events := run.events, outcome := .error failure })

/-- The errors that an outcome puts into the report. -/
def Session.errorsOf : Except Failure α → List AssemblyError
  | .error (.rejected error) => [error]
  | _ => []

/-- What a session gives that assembled, and what it holds then: nothing but what comes from
the run of the assembly. -/
structure Session.LeftBy (limits : Limits) (run : Traced (Program × Output))
    (result : Session × Traced Output) : Prop where
  limits : result.1.limits = limits
  outcome : result.2.outcome = Prod.snd <$> run.outcome
  program : result.1.program = (Prod.fst <$> run.outcome).toOption
  output : result.1.output = result.2.outcome.toOption
  errors : result.1.report.errors = errorsOf result.2.outcome
  warnings : result.1.report.warnings = run.warnings
  warned : result.2.warnings = run.warnings

theorem Session.ofRun_leftBy (limits : Limits) (run : Traced (Program × Output)) :
    LeftBy limits run (ofRun limits run) := by
  unfold ofRun
  cases run with
  | mk events outcome =>
      cases outcome with
      | ok result => exact ⟨rfl, rfl, rfl, rfl, rfl, rfl, rfl⟩
      | error failure =>
          cases failure with
          | rejected error =>
              -- The error is noted behind the run, and it is no warning.
              have warned : warningsOf (events ++ [.failed error]) = warningsOf events :=
                List.filterMap_append.trans (List.append_nil _)
              exact ⟨rfl, rfl, rfl, rfl, rfl, rfl, warned⟩
          | _ => exact ⟨rfl, rfl, rfl, rfl, rfl, rfl, rfl⟩

/-- A report with more warnings behind those it has. -/
def Report.withWarnings (report : Report) (warnings : List Diagnostic) : Report :=
  { report with warnings := report.warnings ++ warnings }

namespace Report

@[simp] theorem withWarnings_nil (report : Report) : report.withWarnings [] = report := by
  rw [withWarnings, List.append_nil]

@[simp] theorem withWarnings_withWarnings (report : Report) (first second : List Diagnostic) :
    (report.withWarnings first).withWarnings second = report.withWarnings (first ++ second) := by
  rw [withWarnings, withWarnings, withWarnings, List.append_assoc]

theorem foldl_addWarning (report : Report) (warnings : List Diagnostic) :
    warnings.foldl addWarning report = report.withWarnings warnings := by
  induction warnings generalizing report with
  | nil => simp
  | cons warning warnings induction =>
      rw [List.foldl_cons, induction]
      exact report.withWarnings_withWarnings [warning] warnings

end Report

/-! ### Readers -/

namespace Reader

/-- What a reader with some limits and a report gives and leaves: it gives a run, and its
report has the warnings of the run behind those it had. -/
structure Gives (limits : Limits) (report : Report) (run : Traced Program)
    (result : Reader × Traced Program) : Prop where
  given : result.2 = run
  report : result.1.report = report.withWarnings run.warnings
  limits : result.1.limits = limits

@[simp] theorem report_warn (reader : Reader) (warnings : List Diagnostic) :
    (reader.warn warnings).report = reader.report.withWarnings warnings :=
  Report.foldl_addWarning reader.report warnings

/-- Warnings that were reported before stand in front. -/
theorem Gives.after {limits : Limits} {report : Report} {earlier : List Event}
    {run : Traced Program} {result : Reader × Traced Program}
    (gives : Gives limits (report.withWarnings (warningsOf earlier)) run result) :
    Gives limits report (run.after earlier) (result.1, result.2.after earlier) := by
  refine ⟨congrArg (Traced.after earlier) gives.given, ?_, gives.limits⟩
  rw [gives.report, Report.withWarnings_withWarnings]
  exact congrArg report.withWarnings (Traced.warnings_after earlier run).symm

theorem gives_close (reader : Reader) :
    Gives reader.limits reader.report (reader.draft.close none) reader.close := by
  have silent : reader.report =
      reader.report.withWarnings (reader.draft.close none).warnings := by
    rw [Draft.warnings_close, Report.withWarnings_nil]
  rw [close]
  cases (reader.draft.close none).outcome with
  | error failure => exact ⟨rfl, silent, rfl⟩
  | ok program => exact ⟨rfl, silent, rfl⟩

theorem accept_of_error (reader : Reader) {line : SourceLine} {noted : List Event}
    {failure : Failure}
    (accepted : reader.draft.accept reader.limits line =
      { events := noted, outcome := .error failure }) :
    reader.accept line =
      (reader.warn (warningsOf noted), { events := noted, outcome := .error failure }) := by
  rw [accept, accepted]

theorem accept_of_done (reader : Reader) {line : SourceLine} {noted : List Event}
    {program : Program}
    (accepted : reader.draft.accept reader.limits line =
      { events := noted, outcome := .ok (.done program) }) :
    reader.accept line =
      ((reader.warn (warningsOf noted)).finish program,
        { events := noted, outcome := .ok () }) := by
  rw [accept, accepted]

theorem accept_of_more (reader : Reader) {line : SourceLine} {noted : List Event} {next : Draft}
    (accepted : reader.draft.accept reader.limits line =
      { events := noted, outcome := .ok (.more next) }) :
    reader.accept line =
      ({ reader.warn (warningsOf noted) with draft := next },
        { events := noted, outcome := .ok () }) := by
  rw [accept, accepted]

/-- A reader that has not ended does what reading lines does. -/
theorem readFrom_gives {reader : Reader} {ending : Ending} {count : Nat} (lines : List String)
    (counted : reader.number = count) (live : reader.ended = false) :
    Gives reader.limits reader.report
      (Draft.readLines reader.limits ending count reader.draft lines)
      (readFrom ending count reader lines) := by
  induction lines generalizing reader count with
  | nil =>
      rw [readFrom, counted]
      exact ⟨rfl, (Report.withWarnings_nil _).symm, rfl⟩
  | cons text rest induction =>
      rw [readFrom]
      cases record : SourceLine.isComment (Text.chomp text) with
      | true =>
          rw [Draft.readLines_comment record]
          exact @induction (reader.reach (count + 1)) (count + 1) rfl live
      | false =>
          by_cases full : reader.limits.maxRecords ≤ reader.draft.program.records.length
          · simp only [Bool.false_eq_true, if_false, limits_reach, draft_reach, number_reach, full,
              if_true]
            rw [(Draft.Stops.ceiling record full).readLines]
            have closed := gives_close
              ((reader.reach (count + 1)).warn
                [.recordLimit reader.limits.maxRecords (count + 1 : Nat)])
            rw [report_warn] at closed
            exact closed.after
          · have space := Int.not_le.mp full
            simp only [Bool.false_eq_true, if_false, limits_reach, draft_reach, number_reach, full]
            cases split : SourceLine.split reader.limits.spareCalls (count + 1 : Nat)
                (Text.chomp text) with
            | error failure =>
                rw [(Draft.Stops.malformed record space split).readLines]
                exact ⟨rfl, (Report.withWarnings_nil _).symm, rfl⟩
            | ok line =>
                cases accepted : reader.draft.accept reader.limits line with
                | mk noted outcome =>
                    cases outcome with
                    | error failure =>
                        simp only [accept_of_error (reader.reach (count + 1)) accepted]
                        rw [(Draft.Stops.refused record space split accepted).readLines]
                        exact ⟨rfl, report_warn _ _, rfl⟩
                    | ok progress =>
                        cases progress with
                        | done program =>
                            simp only [accept_of_done (reader.reach (count + 1)) accepted]
                            rw [(Draft.Stops.ended record space split accepted).readLines]
                            exact ⟨rfl, report_warn _ _, rfl⟩
                        | more next =>
                            have goesOn : ¬((reader.reach (count + 1)).warn
                                (warningsOf noted)).ended = true := by
                              simp [warn, reach, live]
                            have further := @induction
                              { (reader.reach (count + 1)).warn (warningsOf noted) with
                                draft := next }
                              (count + 1) rfl live
                            rw [report_warn] at further
                            simp only [accept_of_more (reader.reach (count + 1)) accepted]
                            rw [Draft.readLines_more record space split accepted, if_neg goesOn]
                            exact further.after

/-- A reader reads a source as it is read on its own, whatever its working state. -/
theorem read_gives (reader : Reader) (source : Source) :
    Gives reader.limits reader.report (Program.read reader.limits source)
      (reader.read source) :=
  @readFrom_gives reader.reset source.ending 0 source.lines rfl rfl

end Reader

/-! ### Sessions -/

namespace Session

/-- Assembling in place comes to what the run of `assemble` comes to, whatever the session
held before. -/
theorem assembleSource_eq (session : Session) (source : Source) :
    session.assembleSource source =
      ofRun session.limits (assemble session.limits source) := by
  have gives := Reader.read_gives
    { limits := session.reset.limits, report := session.reset.report } source
  have warned := warnings_assemble session.limits source
  rw [assembleSource]
  generalize Reader.read _ source = result at gives ⊢
  obtain ⟨reader, reading⟩ := result
  obtain ⟨read, report, _⟩ := gives
  obtain ⟨limits, _, _, _⟩ := session
  change reading = Program.read limits source at read
  change reader.report = { warnings := (Program.read limits source).warnings } at report
  rw [ofRun, warned]
  simp only [report, read, assemble]
  obtain ⟨events, outcome⟩ := Program.read limits source
  cases outcome with
  | error failure =>
      cases failure with
      | rejected error => rfl
      | _ => rfl
  | ok program =>
      have followed {next : Program → Traced (Program × Output)} :
          (Traced.mk events (.ok program) >>= next) = (next program).after events := rfl
      rw [followed]
      cases encoded : program.encode with
      | error failure =>
          simp only [encoded, Traced.lift_error_bind]
          cases failure with
          | rejected error => rfl
          | _ => rfl
      | ok output =>
          simp only [encoded, Traced.lift_ok_bind, List.append_assoc]
          rfl

/-- What a session held before is gone when it has assembled. -/
theorem assembleSource_leftBy (session : Session) (source : Source) :
    LeftBy session.limits (assemble session.limits source) (session.assembleSource source) := by
  rw [assembleSource_eq]
  exact ofRun_leftBy _ _

theorem outcome_assembleSource (session : Session) (source : Source) :
    (session.assembleSource source).2.outcome =
      Prod.snd <$> (assemble session.limits source).outcome :=
  (session.assembleSource_leftBy source).outcome

theorem warnings_assembleSource (session : Session) (source : Source) :
    (session.assembleSource source).1.report.warnings =
      (assemble session.limits source).warnings :=
  (session.assembleSource_leftBy source).warnings

end Session

end Lc3Assembler
