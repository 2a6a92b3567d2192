import Lc3Assembler.Proofs.LineEdits

/-!
# Sessions and readers without memory

A session and a reader are used again and again.  What a use gives depends on the
limits and on the source alone: not on the results, the report or the working state
that earlier uses left behind, however they ended.
-/

namespace Lc3Assembler

/-! ## Readers -/

namespace Reader

theorem limits_readAll (reader : Reader) (sources : List Source) :
    (reader.readAll sources).limits = reader.limits := by
  induction sources generalizing reader with
  | nil => rfl
  | cons source sources induction =>
      rw [readAll, List.foldl_cons]
      exact (induction (reader.read source).1).trans (reader.read_gives source).limits

/-- A reader gives and reports what a new one does. -/
theorem read_eq_new (reader : Reader) (source : Source) :
    (reader.read source).2 = (read { limits := reader.limits } source).2 ∧
      (reader.read source).1.report =
        reader.report.withWarnings (read { limits := reader.limits } source).1.report.warnings := by
  have gives := reader.read_gives source
  have new := read_gives { limits := reader.limits } source
  constructor
  · rw [gives.given, new.given]
  · rw [gives.report, new.report]
    rfl

end Reader

/-! ## Sessions -/

namespace Session

/-- A call that assembles a source. -/
inductive Call where
  | text (text : String)
  | lines (source : Source)
  | file (directory : Directory) (path : Path)

/-- The source of a call, unless its file cannot be opened. -/
def Call.source : Call → Except Failure Source
  | .text characters => .ok (.ofText characters)
  | .lines source => .ok source
  | .file directory path => Source.ofBytes <$> directory.read path

def perform (session : Session) : Call → Session × Traced Output
  | .text characters => session.assembleText characters
  | .lines source => session.assembleSource source
  | .file directory path => session.assembleFile directory path

/-- The session after some calls, however they ended. -/
def performAll (session : Session) (calls : List Call) : Session :=
  calls.foldl (fun current call => (current.perform call).1) session

/-- What can be asked of a session: the program, the object lines and the listing of
the last assembly, its warnings and errors, and the text of the report. -/
structure Answers where
  program : Except Failure Program
  objectLines : Except Failure (List String)
  listing : Except Failure String
  warnings : List Diagnostic
  errors : List AssemblyError
  report : String

def answers (session : Session) : Answers where
  program := session.requireProgram
  objectLines := session.requireOutput.map Output.objectLines
  listing := session.requireOutput.map Output.listingText
  warnings := session.report.warnings
  errors := session.report.errors
  report := session.report.text

theorem limits_assembleSource (session : Session) (source : Source) :
    (session.assembleSource source).1.limits = session.limits :=
  (session.assembleSource_leftBy source).limits

/-- Only the limits of a session matter to an assembly. -/
theorem assembleSource_of_limits {session other : Session} (same : other.limits = session.limits)
    (source : Source) : other.assembleSource source = session.assembleSource source := by
  rw [assembleSource_eq, assembleSource_eq, same]

theorem limits_perform (session : Session) (call : Call) :
    (session.perform call).1.limits = session.limits := by
  cases call with
  | text text => exact limits_assembleSource session _
  | lines source => exact limits_assembleSource session source
  | file directory path =>
      rw [perform, assembleFile]
      cases directory.read path with
      | error failure => rfl
      | ok content => exact limits_assembleSource session _

theorem limits_performAll (session : Session) (calls : List Call) :
    (session.performAll calls).limits = session.limits := by
  induction calls generalizing session with
  | nil => rfl
  | cons call calls induction =>
      rw [performAll, List.foldl_cons]
      exact (induction (session.perform call).1).trans (session.limits_perform call)

/-- A call that gets to its source leaves the session that assembling it leaves. -/
theorem perform_of_source {call : Call} {source : Source} (opened : call.source = .ok source)
    (session : Session) :
    (session.perform call).1 = (session.assembleSource source).1 ∧
      (session.perform call).2.outcome = (session.assembleSource source).2.outcome := by
  cases call with
  | text characters =>
      cases opened
      exact ⟨rfl, rfl⟩
  | lines source =>
      cases opened
      exact ⟨rfl, rfl⟩
  | file directory path =>
      rw [Call.source, map_eq_ok_iff] at opened
      obtain ⟨content, read, rfl⟩ := opened
      rw [perform, assembleFile, read]
      exact ⟨rfl, rfl⟩

/-- Only the limits of a session matter to a call that gets to its source. -/
theorem perform_of_limits {session other : Session} (same : other.limits = session.limits)
    {call : Call} {source : Source} (opened : call.source = .ok source) :
    other.perform call = session.perform call := by
  cases call with
  | text characters =>
      rw [perform, perform, assembleText, assembleText, assembleSource_of_limits same]
  | lines source => exact assembleSource_of_limits same source
  | file directory path =>
      rw [Call.source, map_eq_ok_iff] at opened
      obtain ⟨content, read, rfl⟩ := opened
      rw [perform, perform, assembleFile, assembleFile, read]
      simp only [assembleSource_of_limits same]

theorem perform_of_unopened {call : Call} {failure : Failure}
    (unopened : call.source = .error failure) (session : Session) :
    (session.perform call).1 = session ∧ (session.perform call).2.outcome = .error failure := by
  cases call with
  | text characters => cases unopened
  | lines source => cases unopened
  | file directory path =>
      rw [perform, assembleFile]
      rw [Call.source] at unopened
      cases read : directory.read path with
      | ok content =>
          rw [read] at unopened
          cases unopened
      | error other =>
          rw [read] at unopened
          cases unopened
          exact ⟨rfl, rfl⟩

/-- The answers after an assembly that failed. -/
theorem answers_of_failure {session : Session} {source : Source} {failure : Failure}
    (fails : (session.assembleSource source).2.outcome = .error failure) :
    (session.assembleSource source).1.answers.program = .error (.misuse .nothingAssembled) ∧
      (session.assembleSource source).1.answers.objectLines =
        .error (.misuse .nothingAssembled) ∧
      (session.assembleSource source).1.answers.listing =
        .error (.misuse .nothingAssembled) := by
  have left := session.assembleSource_leftBy source
  have output : (session.assembleSource source).1.output = none := by
    rw [left.output, fails]
    rfl
  have program : (session.assembleSource source).1.program = none := by
    rw [left.program]
    cases outcome : (assemble session.limits source).outcome with
    | error other => rfl
    | ok result =>
        rw [left.outcome, outcome] at fails
        cases fails
  rw [answers, requireProgram, requireOutput, program, output]
  exact ⟨rfl, rfl, rfl⟩

/-- A call gives what it gives in a new session with the same limits, and leaves what
it leaves there.  A failed assembly leaves no results behind, and one error if the
source was rejected. -/
structure AssemblesAfresh (session : Session) (call : Call) : Prop where
  run : (session.perform call).2 = (perform { limits := session.limits } call).2
  answers : (session.perform call).1.answers =
    (perform { limits := session.limits } call).1.answers
  errors : (session.perform call).1.answers.errors = errorsOf (session.perform call).2.outcome
  failed : ∀ failure, (session.perform call).2.outcome = .error failure →
    (session.perform call).1.answers.program = .error (.misuse .nothingAssembled) ∧
    (session.perform call).1.answers.objectLines = .error (.misuse .nothingAssembled) ∧
    (session.perform call).1.answers.listing = .error (.misuse .nothingAssembled)

theorem assemblesAfresh {call : Call} {source : Source} (opened : call.source = .ok source)
    (session : Session) : session.AssemblesAfresh call := by
  have limits : session.limits = ({ limits := session.limits } : Session).limits := rfl
  have same := perform_of_limits limits opened
  obtain ⟨left, outcome⟩ := perform_of_source opened session
  refine ⟨by rw [same], by rw [same], ?_, ?_⟩
  · rw [left, outcome]
    exact (session.assembleSource_leftBy source).errors
  · intro failure fails
    rw [left]
    rw [outcome] at fails
    exact answers_of_failure fails

end Session

/-- What came before does not show.  After any calls of a session, a call that gets
to its source assembles as in a new session, and one whose file cannot be opened
leaves every answer as it was; and after any sources, a reader reads and reports as a
new one does. -/
theorem histories_forgotten (limits : Limits) :
    (∀ (history : List Session.Call) (call : Session.Call),
      let session := Session.performAll { limits } history
      session.limits = limits ∧
      (∀ source, call.source = .ok source → session.AssemblesAfresh call) ∧
      ∀ failure, call.source = .error failure →
        (session.perform call).2.outcome = .error failure ∧
        (session.perform call).1.answers = session.answers) ∧
    ∀ (report : Report) (history : List Source) (source : Source),
      let reader := Reader.readAll { limits, report } history
      (reader.read source).2 = (Reader.read { limits } source).2 ∧
      (reader.read source).1.report =
        reader.report.withWarnings (Reader.read { limits } source).1.report.warnings := by
  constructor
  · intro history call
    refine ⟨Session.limits_performAll _ history, ?_, ?_⟩
    · intro source opened
      exact Session.assemblesAfresh opened _
    · intro failure unopened
      obtain ⟨left, outcome⟩ := Session.perform_of_unopened unopened
        (Session.performAll { limits } history)
      exact ⟨outcome, congrArg Session.answers left⟩
  · intro report history source
    have same := Reader.read_eq_new (Reader.readAll { limits, report } history) source
    rw [Reader.limits_readAll] at same
    exact same

end Lc3Assembler
