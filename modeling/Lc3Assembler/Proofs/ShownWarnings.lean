import Lc3Assembler.CommandLine.Run
import Lc3Assembler.Proofs.LineEdits
import Lc3Assembler.Proofs.OperandGrammar
import Lc3Assembler.Proofs.Names

/-!
# Warnings on the error stream

A run of the command line echoes the warnings of an assembly that succeeded, and a
verbose run logs them as they come.  A run that is not verbose shows none of them
when its source is rejected.
-/

namespace Lc3Assembler

namespace Text

/-- No escape character stands in a text. -/
def unescaped (text : List Char) : Bool :=
  text.all (· != escapeCharacter)

@[simp] theorem unescaped_nil : unescaped [] = true := rfl

@[simp] theorem unescaped_cons (c : Char) (text : List Char) :
    unescaped (c :: text) = (c != '\x1b' && unescaped text) := rfl

@[simp] theorem unescaped_append (first second : List Char) :
    unescaped (first ++ second) = (unescaped first && unescaped second) :=
  List.all_append

theorem unescaped_joined {first second : String} (front : unescaped first.toList = true)
    (behind : unescaped second.toList = true) : unescaped (first ++ second).toList = true := by
  rw [String.toList_append, unescaped_append, front, behind, Bool.and_self]

theorem plain_of_unescaped {text : String} (clean : unescaped text.toList = true) :
    plain text = text := by
  apply plain_of_forall_ne
  intro c member
  simpa using List.all_eq_true.mp clean c member

/-- A text is free of escape characters if all of its characters pass a test that
the escape character fails. -/
theorem unescaped_of_forall {test : Char → Bool} {text : List Char}
    (fails : test escapeCharacter = false) (passes : ∀ c ∈ text, test c = true) :
    unescaped text = true := by
  rw [unescaped, List.all_eq_true]
  intro c member
  rw [bne_iff_ne]
  rintro rfl
  rw [passes _ member] at fails
  cases fails

theorem unescaped_numeral (width : Nat) (value : Int) :
    unescaped (numeral 10 width value) = true := by
  have sign : unescaped (signOf value) = true := by
    rw [signOf]
    split <;> rfl
  have zeros (count : Nat) : unescaped (List.replicate count '0') = true := by
    apply unescaped_of_forall (by decide : isDecimalDigit escapeCharacter = false)
    intro c member
    rw [List.eq_of_mem_replicate member]
    rfl
  have digits : unescaped (Nat.toDigits 10 value.natAbs) = true := by
    apply unescaped_of_forall (by decide : isDecimalDigit escapeCharacter = false)
    intro c member
    obtain ⟨digit, small, rfl⟩ := mem_toDigits (by decide) member
    interval_cases digit <;> decide
  simp only [numeral, unescaped_append, sign, zeros, digits, Bool.and_self]

@[simp] theorem unescaped_decimal (value : Int) : unescaped (decimal value).toList = true := by
  rw [decimal, String.toList_ofList]
  exact unescaped_numeral 0 value

theorem IsName.unescaped {most : Nat} {text : List Char} (name : IsName most text) :
    unescaped text = true :=
  unescaped_of_forall (by decide : isAlphanumeric escapeCharacter = false) name.plain

end Text

namespace Token

open Text

theorem unescaped_of_isNumber {isDigit : Char → Bool} (fails : isDigit escapeCharacter = false)
    {most : Nat} {text : List Char}
    (number : isNumber isDigit most (withoutFinalNewline text) = true) :
    unescaped text = true := by
  obtain ⟨final, whole, feeds⟩ := exists_withoutFinalNewline text
  have digits : unescaped (withoutFinalNewline text) = true := by
    simp only [isNumber, Bool.and_eq_true, List.all_eq_true] at number
    exact unescaped_of_forall fails number.2
  have ended : unescaped final = true := by
    apply unescaped_of_forall (by decide : isFileBreak escapeCharacter = false)
    intro c member
    rw [feeds c member]
    rfl
  rw [whole, unescaped_append, digits, ended, Bool.and_self]

theorem unescaped_of_immediate {token : List Char} {value : Base × Int}
    (immediate : immediate? token = some value) : unescaped token = true := by
  unfold immediate? at immediate
  split at immediate
  · simp only [Option.ite_none_right_eq_some] at immediate
    have digits := unescaped_of_isNumber (by decide) immediate.1
    simp [digits]
  · simp only [Option.ite_none_right_eq_some] at immediate
    have digits := unescaped_of_isNumber (by decide) immediate.1
    simp [digits]
  · simp only [Option.ite_none_right_eq_some] at immediate
    have digits := unescaped_of_isNumber (by decide) immediate.1
    simp [digits]
  · cases immediate

/-- A literal is written with digits, a sign and the marks of its base. -/
theorem unescaped_of_literal {calls : Nat} {token : List Char} {result : Form}
    (read : form calls token = some result) (literal : result.kind = .literal) :
    unescaped token = true := by
  rcases form_eq_some read with ⟨bare, rfl⟩ | ⟨_, rest, inner, _, rfl, found, rfl⟩
  · have shaped : unmarkedForm token ≠ .malformed := by
      intro malformed
      rw [malformed] at literal
      cases literal
    obtain ⟨text, spells, denotes⟩ := denotes_of_unmarkedForm rfl shaped
    rw [literal] at denotes
    cases denotes with
    | literal immediate =>
        obtain ⟨rest, rfl, _⟩ := spells.exists_rest
        exact absurd rfl bare
  · cases inner with
    | immediate base value =>
        simp [unescaped_of_immediate (form_eq_immediate_iff.mp found)]
    | _ => cases literal

end Token

namespace Diagnostic

open Text

/-- The text around a message has no escape character. -/
theorem unescaped_text {diagnostic : Diagnostic}
    (message : unescaped diagnostic.message.toList = true) :
    unescaped diagnostic.text.toList = true := by
  have digits : unescaped diagnostic.code.digits.toList = true := by
    rw [Code.digits, decimalZeros, String.toList_ofList]
    exact unescaped_numeral 3 _
  cases severity : diagnostic.severity <;> cases line : diagnostic.line <;>
    simp [Diagnostic.text, severity, line, message, digits]

-- The messages are compared with what they unfold to: their texts are too long to be rewritten.

theorem unescaped_recordLimit (limit line : Int) :
    unescaped (recordLimit limit line).text.toList = true :=
  unescaped_text (unescaped_joined (unescaped_joined rfl (unescaped_decimal limit)) rfl)

/-- A message that quotes what a full table does not take. -/
theorem unescaped_dropped {front dropped : String} (limit : Int)
    (table : unescaped front.toList = true) (clean : unescaped dropped.toList = true) :
    unescaped (front ++ decimal limit ++ ") reached; '" ++ dropped ++ "' not added").toList =
      true := by
  have capacity := unescaped_joined table (unescaped_decimal limit)
  exact unescaped_joined (unescaped_joined (unescaped_joined capacity rfl) clean) rfl

theorem unescaped_symbolTableFull (limit : Int) {label : String}
    (clean : unescaped label.toList = true) (line : Int) :
    unescaped (symbolTableFull limit label line).text.toList = true :=
  unescaped_text (unescaped_dropped limit rfl clean)

theorem unescaped_literalPoolFull (limit : Int) {literal : String}
    (clean : unescaped literal.toList = true) (line : Int) :
    unescaped (literalPoolFull limit literal line).text.toList = true :=
  unescaped_text (unescaped_dropped limit rfl clean)

end Diagnostic

namespace SourceLine

open Text

theorem unescaped_of_literal {spareCalls : Nat} {number : Int} {text : String}
    {line : SourceLine} (split : SourceLine.split spareCalls number text = .ok line) :
    ∀ operand ∈ line.operands, operand.kind = .literal →
      unescaped operand.text.toList = true := by
  obtain ⟨_, _, _, _, _, read⟩ := fields_of_split split
  intro operand member kind
  obtain ⟨_, parsed⟩ := ((readOperands_eq_ok_iff.mp read).2.1 operand member).1
  exact Token.unescaped_of_literal (Operand.parse_eq_some_iff.mp parsed).2 kind

/-- A warning of a line quotes a label or a literal. -/
theorem unescaped_of_lineWarning {limits : Limits} {spareCalls : Nat} {number : Int}
    {text : String} {line : SourceLine}
    (split : SourceLine.split spareCalls number text = .ok line) {warning : Diagnostic}
    (dropped : LineWarning limits line warning) : unescaped warning.text.toList = true := by
  rcases dropped with ⟨labelled, rfl⟩ | ⟨operand, member, kind, rfl⟩
  · have name := (names_of_split split).1 _ labelled
    exact Diagnostic.unescaped_symbolTableFull _ name.unescaped _
  · have literal := unescaped_of_literal split operand member kind
    exact Diagnostic.unescaped_literalPoolFull _ literal _

end SourceLine

/-- The warnings of a source that was read are shown as they are. -/
theorem Program.plain_of_read {limits : Limits} {source : Source} {program : Program}
    (outcome : (Program.read limits source).outcome = .ok program) :
    ∀ warning ∈ (Program.read limits source).warnings,
      Text.plain warning.text = warning.text := by
  have kept : Draft.Inductive limits fun _ warnings _ =>
      ∀ warning ∈ warnings, Text.unescaped warning.text.toList = true := by
    constructor
    · simp
    · intro count warnings draft clean
      exact clean
    · intro count warnings draft next line text progress _ earlier split _ _ warning member
      rcases List.mem_append.mp member with old | new
      · exact earlier warning old
      · exact SourceLine.unescaped_of_lineWarning split
          (draft.accept_lineWarns limits line warning new)
  obtain ⟨count, warnings, _, _, clean, _, reported⟩ := read_invariant kept outcome
  intro warning member
  apply Text.plain_of_unescaped
  rcases reported with same | more
  · rw [same] at member
    exact clean warning member
  · rw [more] at member
    rcases List.mem_append.mp member with early | last
    · exact clean warning early
    · rw [List.mem_singleton.mp last]
      exact Diagnostic.unescaped_recordLimit _ _

namespace CommandLine

/-- The entry of the log for a warning. -/
def warningEntry (warning : Diagnostic) : LogEntry :=
  { level := .info, channel := .diagnosis, message := warning.text }

/-- A line that shows a warning: its text, or its line in the log. -/
inductive Shows (warning : Diagnostic) : String → Prop where
  | echoed : Shows warning warning.text
  | logged : Shows warning (warningEntry warning).text

/-- Every warning is shown by a line of its own, in order. -/
def ShowsAll (warnings : List Diagnostic) (lines : List String) : Prop :=
  ∃ shown, List.Forall₂ Shows warnings shown ∧ shown.Sublist lines

theorem forall₂_shows {line : Diagnostic → String}
    (shows : ∀ warning, Shows warning (line warning)) (warnings : List Diagnostic) :
    List.Forall₂ Shows warnings (warnings.map line) := by
  rw [List.forall₂_map_right_iff, List.forall₂_same]
  intro warning _
  exact shows warning

theorem logLines_cons (event : Event) (events : List Event) :
    logLines true (event :: events) =
      (event.log?.map LogEntry.text).toList ++ logLines true events := by
  rw [logLines, List.filterMap_cons]
  cases event.log? with
  | none => rfl
  | some entry => rfl

/-- A verbose run logs every warning as it comes. -/
theorem logged_sublist (events : List Event) :
    ((warningsOf events).map fun warning => (warningEntry warning).text).Sublist
      (logLines true events) := by
  induction events with
  | nil => exact .slnil
  | cons event events induction =>
      rw [logLines_cons]
      cases event with
      | warned diagnostic => exact induction.cons_cons _
      | _ => exact induction.trans (List.sublist_append_right _ _)

/-- The two characters that a line starts with. -/
def opening (line : String) : List Char :=
  line.toList.take 2

/-- The openings of the lines that show a warning. -/
theorem Shows.opening {warning : Diagnostic} {line : String} (shows : Shows warning line) :
    opening line ∈ [['[', 'W'], ['[', 'E'], ['I', 'N']] := by
  cases shows with
  | echoed =>
      cases severity : warning.severity <;>
        simp [CommandLine.opening, Diagnostic.text, severity]
  | logged => simp [CommandLine.opening, LogEntry.text, warningEntry, Level.text]

/-- Only settings that are ignored are logged by a run that is not verbose. -/
theorem opening_of_mem_logLines {events : List Event} {line : String}
    (logged : line ∈ logLines false events) : opening line = ['W', 'A'] := by
  simp only [logLines, List.mem_filterMap, Bool.false_or, decide_eq_true_eq,
    Option.ite_none_right_eq_some, Option.some.injEq] at logged
  obtain ⟨entry, _, level, rfl⟩ := logged
  simp [opening, LogEntry.text, level, Level.text]

/-- A text that does not start with a control sequence keeps its opening. -/
theorem opening_plain {text : String} (clean : Text.unescaped (opening text) = true) :
    opening (Text.plain text) = opening text := by
  rw [opening] at clean
  rw [opening, opening, Text.plain, String.toList_ofList]
  cases shown : text.toList with
  | nil => rfl
  | cons first behind =>
      rw [shown] at clean
      cases behind with
      | nil =>
          have one : first ≠ Text.escapeCharacter := by
            simpa [Text.escapeCharacter] using clean
          rw [Text.plainAfter_zero_cons one]
          rfl
      | cons second rest =>
          have both : first ≠ Text.escapeCharacter ∧ second ≠ Text.escapeCharacter := by
            simpa [Text.escapeCharacter] using clean
          rw [Text.plainAfter_zero_cons both.1, Text.plainAfter_zero_cons both.2]
          rfl

theorem opening_append {front behind : String} {first second : Char}
    (opens : opening front = [first, second]) : opening (front ++ behind) = [first, second] := by
  have long : 2 ≤ front.toList.length := by
    have taken := congrArg List.length opens
    simp only [opening, List.length_take, List.length_cons, List.length_nil] at taken
    omega
  rw [opening, String.toList_append, List.take_append_of_le_length long]
  exact opens

/-- The openings of the lines that report a trouble. -/
def troubleOpenings : List (List Char) :=
  [['A', 's'], ['E', 'r'], ['I', '/'], ['I', 'n']]

theorem opening_text (trouble : Trouble) :
    opening (trouble.text "Assembly") ∈ troubleOpenings := by
  have known (first second : Char) (opens : opening (trouble.text "Assembly") = [first, second])
      (member : [first, second] ∈ troubleOpenings) :
      opening (trouble.text "Assembly") ∈ troubleOpenings := by
    rw [opens]
    exact member
  cases trouble with
  | rejected message =>
      have heading : opening (Trouble.heading "Assembly") = ['A', 's'] := by decide +kernel
      exact known 'A' 's' (opening_append heading) (by decide)
  | unwritten kind path refusal =>
      refine known 'E' 'r' ?_ (by decide)
      iterate 5 apply opening_append
      rfl
  | badValue message hint =>
      cases hint with
      | none => exact known 'E' 'r' (opening_append rfl) (by decide)
      | some hint =>
          refine known 'E' 'r' ?_ (by decide)
          iterate 3 apply opening_append
          rfl
  | refused refusal =>
      have worded : Trouble.text "Assembly" (.refused refusal) = "Error: " ++ refusal.message ∨
          Trouble.text "Assembly" (.refused refusal) = "I/O error: " ++ refusal.message := by
        unfold Trouble.text
        dsimp only
        cases refusal.kind with
        | notFound | permission | isDirectory => exact .inl rfl
        | notDirectory | tooLong | other => exact .inr rfl
      rcases worded with missing | failing
      · refine known 'E' 'r' ?_ (by decide)
        rw [missing]
        exact opening_append rfl
      · refine known 'I' '/' ?_ (by decide)
        rw [failing]
        exact opening_append rfl
  | unforeseen message =>
      exact known 'I' 'n' (opening_append rfl) (by decide)

theorem opening_line (trouble : Trouble) :
    opening (trouble.line "Assembly") ∈ troubleOpenings := by
  have clean : ∀ start ∈ troubleOpenings, Text.unescaped start = true := by decide
  rw [Trouble.line, opening_plain (clean _ (opening_text trouble))]
  exact opening_text trouble

/-- Neither an ignored setting nor a trouble is taken for a warning of the assembly. -/
theorem not_shows_of_opening {warning : Diagnostic} {line : String}
    (other : opening line = ['W', 'A'] ∨ opening line ∈ troubleOpenings) :
    ¬Shows warning line := by
  intro shows
  have own := shows.opening
  have apart : ∀ start ∈ [['[', 'W'], ['[', 'E'], ['I', 'N']],
      ¬(start = ['W', 'A'] ∨ start ∈ troubleOpenings) := by decide
  exact apart _ own other

end CommandLine

namespace Session

theorem warnings_of_start {limits : Limits} {session : Session}
    (started : start limits = .ok session) : session.report.warnings = [] := by
  rw [start] at started
  cases valid : limits.validate with
  | error rule =>
      rw [valid] at started
      cases started
  | ok _ =>
      rw [valid] at started
      cases started
      rfl

/-- What an assembly warns of stands in the report. -/
theorem reported_assembleSource (session : Session) (source : Source) :
    (session.assembleSource source).1.report.warnings =
      (session.assembleSource source).2.warnings := by
  have left := session.assembleSource_leftBy source
  rw [left.warnings, left.warned]

theorem reported_assembleFile {session : Session} (new : session.report.warnings = [])
    (directory : Directory) (path : Path) :
    (session.assembleFile directory path).1.report.warnings =
      (session.assembleFile directory path).2.warnings := by
  rw [assembleFile]
  cases directory.read path with
  | error failure => exact new
  | ok content => exact session.reported_assembleSource (.ofBytes content)

/-- The warnings of an assembly that succeeds can be shown as they are. -/
theorem plain_of_assembleFile {session : Session} {directory : Directory} {path : Path}
    (succeeds : (session.assembleFile directory path).2.outcome.isOk = true) :
    ∀ warning ∈ (session.assembleFile directory path).1.report.warnings,
      Text.plain warning.text = warning.text := by
  rw [assembleFile] at succeeds ⊢
  cases opened : directory.read path with
  | error failure =>
      rw [opened] at succeeds
      cases succeeds
  | ok content =>
      rw [opened] at succeeds
      obtain ⟨output, assembled⟩ := exists_eq_ok succeeds
      change (session.assembleSource (.ofBytes content)).2.outcome = .ok output at assembled
      rw [outcome_assembleSource] at assembled
      obtain ⟨⟨program, _⟩, result, _⟩ := map_eq_ok_iff.mp assembled
      have plain := Program.plain_of_read (assemble_eq_ok result).1
      rw [← warnings_assemble, ← warnings_assembleSource] at plain
      exact plain

end Session

namespace CommandLine

section

variable {parse : OptionParser} {directory : Directory} {environment : Limits.Environment}
  {words : List String} {input : Path} {settings : Settings} {session : Session}

theorem complaints_finish (printed complaints : List String) :
    ∃ behind,
      (finish session input settings printed complaints directory).complaints =
        complaints ++ session.report.warnings.map (fun warning => Text.plain warning.text)
          ++ behind := by
  simp only [finish, List.map_map]
  split
  · exact ⟨_, rfl⟩
  · exact ⟨[], (List.append_nil _).symm⟩
  · exact ⟨_, rfl⟩

/-- What a run that got to its assembly complains of. -/
theorem complaints_run
    (request : parse directory words = .ok (.assembly input settings))
    (started : Session.start (settings.limits (Limits.ofEnvironment environment).1) =
      .ok session) :
    ∃ ignored behind,
      (run parse directory environment words).complaints =
        logLines settings.verbose ignored ++
          logLines settings.verbose (session.assembleFile directory input).2.events ++ behind ∧
      ((session.assembleFile directory input).2.outcome.isOk = true →
        ((session.assembleFile directory input).1.report.warnings.map Diagnostic.text).Sublist
          behind) ∧
      ((session.assembleFile directory input).2.outcome.isOk = false →
        ∃ trouble : Trouble, behind = [trouble.line "Assembly"]) := by
  rw [run, request]
  simp only [runAssembly, started]
  refine ⟨(Limits.ofEnvironment environment).2.map Event.ignored, ?_⟩
  cases outcome : (session.assembleFile directory input).2.outcome with
  | error failure =>
      refine ⟨[(Trouble.ofFailure failure).line "Assembly"], rfl, ?_, ?_⟩
      · intro succeeds
        cases succeeds
      · intro _
        exact ⟨.ofFailure failure, rfl⟩
  | ok output =>
      have succeeds : (session.assembleFile directory input).2.outcome.isOk = true := by
        rw [outcome]
        rfl
      have plain := Session.plain_of_assembleFile succeeds
      obtain ⟨behind, finished⟩ := complaints_finish _ _
      refine ⟨_, (finished.trans (List.append_assoc ..)), ?_, ?_⟩
      · intro _
        rw [List.map_congr_left plain]
        exact List.sublist_append_left _ _
      · intro fails
        cases fails

/-- A run that is not verbose shows no warning of an assembly that fails. -/
theorem not_showsAll_of_failed
    (request : parse directory words = .ok (.assembly input settings))
    (started : Session.start (settings.limits (Limits.ofEnvironment environment).1) =
      .ok session)
    (fails : (session.assembleFile directory input).2.outcome.isOk = false)
    (quiet : settings.verbose = false) {warning : Diagnostic} {warnings : List Diagnostic} :
    ¬ShowsAll (warning :: warnings) (run parse directory environment words).complaints := by
  obtain ⟨ignored, behind, complaints, _, failed⟩ := complaints_run request started
  obtain ⟨trouble, rfl⟩ := failed fails
  rintro ⟨shown, shows, sublist⟩
  cases shows with
  | cons first others =>
      have member := sublist.subset List.mem_cons_self
      rw [complaints, quiet, List.append_assoc, List.mem_append, List.mem_append,
        List.mem_singleton] at member
      -- No line of this run starts as a line that shows a warning does.
      apply not_shows_of_opening _ first
      rcases member with setting | event | rfl
      · exact .inl (opening_of_mem_logLines setting)
      · exact .inl (opening_of_mem_logLines event)
      · exact .inr (opening_line trouble)

/-- A run shows the warnings of its assembly exactly if the assembly succeeds, the run
is verbose, or there are none. -/
theorem run_showsAll_iff
    (request : parse directory words = .ok (.assembly input settings))
    (started : Session.start (settings.limits (Limits.ofEnvironment environment).1) =
      .ok session) :
    ShowsAll (session.assembleFile directory input).1.report.warnings
        (run parse directory environment words).complaints ↔
      (session.assembleFile directory input).2.outcome.isOk = true ∨
        settings.verbose = true ∨
        (session.assembleFile directory input).1.report.warnings = [] := by
  constructor
  · intro shows
    by_contra! hidden
    obtain ⟨fails, quiet, warned⟩ := hidden
    obtain ⟨warning, warnings, present⟩ := List.exists_cons_of_ne_nil warned
    rw [present] at shows
    exact not_showsAll_of_failed request started (Bool.eq_false_of_not_eq_true fails)
      (Bool.eq_false_of_not_eq_true quiet) shows
  · obtain ⟨ignored, behind, complaints, succeeded, _⟩ := complaints_run request started
    rw [complaints]
    rintro (succeeds | verbose | none)
    · refine ⟨_, forall₂_shows (fun _ => .echoed) _, (succeeded succeeds).trans ?_⟩
      exact List.sublist_append_right _ _
    · have logged := logged_sublist (session.assembleFile directory input).2.events
      rw [Session.reported_assembleFile (Session.warnings_of_start started), verbose]
      refine ⟨_, forall₂_shows (fun _ => .logged) _, logged.trans ?_⟩
      rw [List.append_assoc]
      exact (List.sublist_append_left _ _).trans (List.sublist_append_right _ _)
    · rw [none]
      exact ⟨[], .nil, List.nil_sublist _⟩

end

/-- A directory with a source whose second label is referred to. -/
def labelledDirectory : Directory :=
  Directory.addFile {} "p.asm"
    (Text.Utf8.encode
      ("S        .ORIG   x3000\nA        RET\nB        RET\n         JMP     B\n"
        ++ "         .END\n").toList)

/-- A session whose symbol table takes one label. -/
def narrowSession : Session :=
  { limits := { maxSymbols := 1 } }

theorem narrowSession_warnings :
    (narrowSession.assembleFile labelledDirectory (.ofString "p.asm")).1.report.warnings =
      [.symbolTableFull 1 "B" 3] := by decide +kernel

/-- With room for one label the second is dropped, and a verbose run shows it. -/
theorem verboseRun_shows :
    (narrowSession.assembleFile labelledDirectory (.ofString "p.asm")).1.report.warnings ≠ [] ∧
      ShowsAll (narrowSession.assembleFile labelledDirectory (.ofString "p.asm")).1.report.warnings
        (run Request.ofWords labelledDirectory {} ["-v", "-s", "1", "p.asm"]).complaints := by
  have request : Request.ofWords labelledDirectory ["-v", "-s", "1", "p.asm"] =
      .ok (.assembly (.ofString "p.asm") { maxSymbols := some 1, verbose := true }) := by
    decide +kernel
  constructor
  · rw [narrowSession_warnings]
    exact List.cons_ne_nil _ _
  · exact (run_showsAll_iff request rfl).mpr (.inr (.inl rfl))

/-- Without `-v` only the error shows to which the dropped label leads. -/
theorem quietRun_hides :
    Session.start (Settings.limits { maxSymbols := some 1 } (Limits.ofEnvironment {}).1) =
        .ok narrowSession ∧
      (run Request.ofWords labelledDirectory {} ["-s", "1", "p.asm"]).complaints =
        ["Assembly error: line 4: error E115: undefined symbol 'B'"] ∧
      ¬ShowsAll
        (narrowSession.assembleFile labelledDirectory (.ofString "p.asm")).1.report.warnings
        (run Request.ofWords labelledDirectory {} ["-s", "1", "p.asm"]).complaints := by
  have request : Request.ofWords labelledDirectory ["-s", "1", "p.asm"] =
      .ok (.assembly (.ofString "p.asm") { maxSymbols := some 1 }) := by
    decide +kernel
  refine ⟨rfl, by decide +kernel, ?_⟩
  rw [narrowSession_warnings]
  exact not_showsAll_of_failed request rfl (by decide +kernel) rfl

end CommandLine

end Lc3Assembler
