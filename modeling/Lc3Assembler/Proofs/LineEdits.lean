import Lc3Assembler.Proofs.ListingColumns
import Lc3Assembler.Proofs.RecordCeiling
import Lc3Assembler.Proofs.RenumberedOutput

/-!
# Edits that leave a program as it is

Comments, what stands behind the operands of a record, and the lines behind the
one at which reading finishes can be changed freely.  The two sources are read
side by side: their drafts differ in the numbers of lines only, and these decide
nothing.
-/

namespace Lc3Assembler

/-- Lines with the same label, opcode and operands. -/
def SameRecord (text other : String) : Prop :=
  ∃ spareCalls number line,
    SourceLine.split spareCalls number (Text.chomp text) = .ok line ∧
    SourceLine.split spareCalls number (Text.chomp other) = .ok line

/-- Lines before and after edits that keep every record. -/
inductive Edited : List String → List String → Prop where
  | nil : Edited [] []
  | kept {text : String} {lines others : List String} (rest : Edited lines others) :
      Edited (text :: lines) (text :: others)
  | inserted {text : String} {lines others : List String}
      (comment : SourceLine.isComment (Text.chomp text) = true) (rest : Edited lines others) :
      Edited lines (text :: others)
  | deleted {text : String} {lines others : List String}
      (comment : SourceLine.isComment (Text.chomp text) = true) (rest : Edited lines others) :
      Edited (text :: lines) others
  | replaced {text other : String} {lines others : List String}
      (same : SameRecord text other) (rest : Edited lines others) :
      Edited (text :: lines) (other :: others)

/-- Reading a source finishes at its line `last`: the lines before it are taken in,
and this one ends the segment, meets the record ceiling or is rejected. -/
def Source.FinishesAt (source : Source) (limits : Limits) (before : List String)
    (last : String) : Prop :=
  ∃ rest events draft run,
    source.lines = before ++ last :: rest ∧ Draft.Reads limits before events draft ∧
    Draft.Stops limits source.ending before.length draft (last :: rest) run

/-- A source after edits that keep every record up to the end.  Behind the line at
which reading finishes there may be anything. -/
inductive Source.Revised (limits : Limits) (source : Source) : Source → Prop where
  | whole {others : List String} (edited : Edited source.lines others) :
      Revised limits source { lines := others, ending := source.ending }
  | finished {before others tail : List String} {last : String} {ending : Ending}
      (finishes : source.FinishesAt limits before last)
      (edited : Edited (before ++ [last]) others) :
      Revised limits source { lines := others ++ tail, ending }

/-- Listing lines that differ at most in the number behind the address and contents
columns. -/
inductive Listing.SameUpToNumber : String → String → Prop where
  | same (line : String) : SameUpToNumber line line
  | numbered {line other : String} {front behind : List Char} {number otherNumber : Int}
      (width : front.length = Listing.storageWidth)
      (shown : line.toList =
        front ++ ' ' :: '(' :: ((Text.decimalRight 4 number).toList ++ ')' :: behind))
      (otherShown : other.toList =
        front ++ ' ' :: '(' :: ((Text.decimalRight 4 otherNumber).toList ++ ')' :: behind)) :
      SameUpToNumber line other

structure Output.SameUpToNumbers (output other : Output) : Prop where
  object : other.objectLines = output.objectLines
  listing : List.Forall₂ Listing.SameUpToNumber output.listingLines other.listingLines

/-- Related results, or failures that differ in the reported position only. -/
inductive SameOutcome (related : α → α → Prop) :
    Except Failure α → Except Failure α → Prop where
  | success {value other : α} (same : related value other) :
      SameOutcome related (.ok value) (.ok other)
  | rejected {error other : AssemblyError}
      (errorClass : other.cause.errorClass = error.cause.errorClass)
      (code : other.code = error.code) :
      SameOutcome related (.error (.rejected error)) (.error (.rejected other))
  | failure (failure : Failure) : SameOutcome related (.error failure) (.error failure)

/-- Computations with the same outcome up to positions, and warnings with the same
codes in the same order. -/
structure Traced.Matches (related : α → α → Prop) (run other : Traced α) : Prop where
  outcome : SameOutcome related run.outcome other.outcome
  warnings : other.warnings.map Diagnostic.code = run.warnings.map Diagnostic.code

/-- What two assemblies have in common when only positions differ. -/
structure Session.SameResult (first second : Session × Traced Output) : Prop where
  outcome : SameOutcome Output.SameUpToNumbers first.2.outcome second.2.outcome
  warnings : second.1.report.warnings.map Diagnostic.code =
    first.1.report.warnings.map Diagnostic.code

namespace Edited

theorem refl (lines : List String) : Edited lines lines := by
  induction lines with
  | nil => exact .nil
  | cons text lines induction => exact .kept induction

theorem append {lines others : List String} (edited : Edited lines others)
    (tail : List String) : Edited (lines ++ tail) (others ++ tail) := by
  induction edited with
  | nil => exact .refl tail
  | kept _ induction => exact .kept induction
  | inserted comment _ induction => exact .inserted comment induction
  | deleted comment _ induction => exact .deleted comment induction
  | replaced same _ induction => exact .replaced same induction

end Edited

namespace SourceLine

/-- The number of a line goes into its record as it is. -/
theorem fields_number (spareCalls : Nat) (number other : Int) (text : List Char) :
    fields spareCalls other text =
      (fun line => { line with number := other }) <$> fields spareCalls number text := by
  rw [fields, fields]
  split
  · rfl
  · cases readLabel (labelField text) with
    | error cause => rfl
    | ok label =>
        cases readOpcode (opcodeField text) (opcodeGap text) with
        | error cause => rfl
        | ok opcode =>
            simp only [ok_bind]
            cases readTokens opcode (operandField text) with
            | error cause => rfl
            | ok tokens =>
                simp only [ok_bind]
                cases readOperands spareCalls tokens with
                | error cause => rfl
                | ok operands => rfl

end SourceLine

/-- The record of a line depends neither on where the line stands nor on the host. -/
theorem SameRecord.fields {text other : String} (same : SameRecord text other)
    (spareCalls : Nat) (number : Int) :
    SourceLine.fields spareCalls number (Text.chomp other).toList =
      SourceLine.fields spareCalls number (Text.chomp text).toList := by
  obtain ⟨_, place, line, split, otherSplit⟩ := same
  have taken := SourceLine.fields_eq_of_split (SourceLine.split_of_split split spareCalls)
  have otherTaken :=
    SourceLine.fields_eq_of_split (SourceLine.split_of_split otherSplit spareCalls)
  rw [SourceLine.fields_number spareCalls place number (Text.chomp other).toList,
    SourceLine.fields_number spareCalls place number (Text.chomp text).toList, taken,
    otherTaken]

/-- The number of no line in particular. -/
def unnumbered (_ : Int) : Int := 0

def Program.SameUpToLines (program other : Program) : Prop :=
  other.renumbered unnumbered = program.renumbered unnumbered

def Draft.SameUpToLines (draft other : Draft) : Prop :=
  other.renumbered unnumbered = draft.renumbered unnumbered

def Progress.SameUpToLines (progress other : Progress) : Prop :=
  other.renumbered unnumbered = progress.renumbered unnumbered

section

variable {number : Int → Int}

theorem Cause.errorClass_renumbered (cause : Cause) :
    (cause.renumbered number).errorClass = cause.errorClass := by
  cases cause <;> rfl

theorem Cause.code_renumbered (cause : Cause) : (cause.renumbered number).code = cause.code := by
  cases cause <;> rfl

theorem warningsOf_renumbered (events : List Event) :
    (warningsOf (events.map (Event.renumbered number))).map Diagnostic.code =
      (warningsOf events).map Diagnostic.code := by
  induction events with
  | nil => rfl
  | cons event events induction =>
      cases event with
      | warned diagnostic => exact congrArg (diagnostic.code :: ·) induction
      | _ => exact induction

/-- Only an error of the source holds a number. -/
theorem Failure.eq_or_rejected {failure other : Failure}
    (same : other.renumbered number = failure.renumbered number) :
    other = failure ∨ ∃ error otherError,
      failure = .rejected error ∧ other = .rejected otherError ∧
      otherError.cause.renumbered number = error.cause.renumbered number := by
  cases failure with
  | rejected error =>
      cases other with
      | rejected otherError =>
          have causes := congrArg AssemblyError.cause (Failure.rejected.inj same)
          exact .inr ⟨error, otherError, rfl, rfl, causes⟩
      | _ => cases same
  | _ =>
      cases other with
      | rejected otherError => cases same
      | _ => exact .inl same

/-- Outcomes that are equal once renumbered. -/
theorem sameOutcome_of_renumbered {change : α → β} {first second : Except Failure α}
    (same : renumberedOutcome number change second = renumberedOutcome number change first) :
    SameOutcome (fun value other => change other = change value) first second := by
  cases first with
  | ok value =>
      cases second with
      | ok other => exact .success (Except.ok.inj same)
      | error failure => cases same
  | error failure =>
      cases second with
      | ok other => cases same
      | error other =>
          rcases Failure.eq_or_rejected (Except.error.inj same) with
            rfl | ⟨error, otherError, rfl, rfl, causes⟩
          · exact .failure other
          · constructor
            · rw [← Cause.errorClass_renumbered otherError.cause, causes,
                Cause.errorClass_renumbered]
            · rw [AssemblyError.code, ← Cause.code_renumbered otherError.cause, causes,
                Cause.code_renumbered]
              rfl

end

namespace SameOutcome

variable {related : α → α → Prop} {first second : Except Failure α}

theorem mono {wider : α → α → Prop} (same : SameOutcome related first second)
    (step : ∀ value changed, first = .ok value → related value changed → wider value changed) :
    SameOutcome wider first second := by
  cases same with
  | success same => exact .success (step _ _ rfl same)
  | rejected errorClass code => exact .rejected errorClass code
  | failure failure => exact .failure failure

theorem bind {result : β → β → Prop} {next other : α → Except Failure β}
    (same : SameOutcome related first second)
    (step : ∀ value changed, first = .ok value → related value changed →
      SameOutcome result (next value) (other changed)) :
    SameOutcome result (first >>= next) (second >>= other) := by
  cases same with
  | success same => exact step _ _ rfl same
  | rejected errorClass code => exact .rejected errorClass code
  | failure failure => exact .failure failure

end SameOutcome

namespace Traced

theorem matches_of_renumbered {number : Int → Int} {change : α → β} {first second : Traced α}
    (same : second.renumbered number change = first.renumbered number change) :
    Matches (fun value other => change other = change value) first second := by
  constructor
  · exact sameOutcome_of_renumbered (congrArg Traced.outcome same)
  · have events : second.events.map (Event.renumbered number) =
        first.events.map (Event.renumbered number) := congrArg Traced.events same
    rw [warnings, warnings, ← warningsOf_renumbered second.events, events,
      warningsOf_renumbered]

theorem Matches.bind {related : α → α → Prop} {result : β → β → Prop} {first second : Traced α}
    {next other : α → Traced β} (same : Matches related first second)
    (step : ∀ value changed, related value changed → Matches result (next value) (other changed)) :
    Matches result (first >>= next) (second >>= other) := by
  obtain ⟨events, outcome⟩ := first
  obtain ⟨otherEvents, otherOutcome⟩ := second
  obtain ⟨outcomes, codes⟩ := same
  cases outcomes with
  | success same =>
      obtain ⟨rest, restCodes⟩ := step _ _ same
      refine ⟨rest, ?_⟩
      change (warningsOf (otherEvents ++ _)).map _ = (warningsOf (events ++ _)).map _
      rw [warningsOf, warningsOf, List.filterMap_append, List.filterMap_append, List.map_append,
        List.map_append]
      exact congrArg₂ (· ++ ·) codes restCodes
  | rejected errorClass code => exact ⟨.rejected errorClass code, codes⟩
  | failure failure => exact ⟨.failure failure, codes⟩

end Traced

namespace Draft

variable {limits : Limits} {draft other : Draft}

theorem SameUpToLines.started (same : draft.SameUpToLines other) :
    other.started = draft.started := by
  have equal : other.renumbered unnumbered = draft.renumbered unnumbered := same
  exact (congrArg (·.started) equal :)

theorem SameUpToLines.records (same : draft.SameUpToLines other) :
    other.program.records.length = draft.program.records.length := by
  have lengths := congrArg (fun draft => draft.program.records.length) same
  simpa [renumbered, Program.renumbered] using lengths

theorem SameUpToLines.close (same : draft.SameUpToLines other) (exec : Option Int) :
    Traced.Matches Program.SameUpToLines (draft.close exec) (other.close exec) := by
  apply Traced.matches_of_renumbered
  rw [← close_renumbered, ← close_renumbered, same]

theorem SameUpToLines.accept (same : draft.SameUpToLines other) {line otherLine : SourceLine}
    (lines : otherLine.renumbered unnumbered = line.renumbered unnumbered) :
    Traced.Matches Progress.SameUpToLines (draft.accept limits line)
      (other.accept limits otherLine) := by
  apply Traced.matches_of_renumbered
  rw [← accept_renumbered, ← accept_renumbered, same, lines]

theorem SameUpToLines.exhausted (same : draft.SameUpToLines other) (count otherCount : Nat)
    (ending : Ending) :
    Traced.Matches Program.SameUpToLines (Traced.fail (draft.exhausted count ending))
      (Traced.fail (other.exhausted otherCount ending)) := by
  refine ⟨?_, rfl⟩
  unfold Draft.exhausted
  rw [same.started]
  cases ending with
  | complete =>
      cases draft.started with
      | true => exact .rejected rfl rfl
      | false => exact .rejected rfl rfl
  | unreadable refusal => exact .rejected rfl rfl
  | undecodable fault => exact .failure _

/-- Records that are read alike are taken in alike, and so is what follows them. -/
theorem SameUpToLines.record {ending : Ending} {count otherCount : Nat} {text otherText : String}
    {lines others : List String} (same : draft.SameUpToLines other)
    (record : SourceLine.isComment (Text.chomp text) = false)
    (otherRecord : SourceLine.isComment (Text.chomp otherText) = false)
    (fields : ∀ number : Int,
      SourceLine.fields limits.spareCalls number (Text.chomp otherText).toList =
        SourceLine.fields limits.spareCalls number (Text.chomp text).toList)
    (rest : ∀ next otherNext, Draft.SameUpToLines next otherNext →
      Traced.Matches Program.SameUpToLines (readLines limits ending (count + 1) next lines)
        (readLines limits ending (otherCount + 1) otherNext others)) :
    Traced.Matches Program.SameUpToLines (readLines limits ending count draft (text :: lines))
      (readLines limits ending otherCount other (otherText :: others)) := by
  have taken :
      SourceLine.fields limits.spareCalls (otherCount + 1 : Nat) (Text.chomp otherText).toList =
        (fun line => { line with number := (otherCount + 1 : Nat) }) <$>
          SourceLine.fields limits.spareCalls (count + 1 : Nat) (Text.chomp text).toList :=
    (fields _).trans (SourceLine.fields_number _ _ _ _)
  rw [readLines, readLines]
  simp only [record, otherRecord, Bool.false_eq_true, if_false, same.records, SourceLine.split,
    taken]
  by_cases full : limits.maxRecords ≤ draft.program.records.length
  · simp only [full, if_true]
    have warned : Traced.Matches (fun _ _ => True)
        (Traced.note (.warned (.recordLimit limits.maxRecords (count + 1 : Nat))))
        (Traced.note (.warned (.recordLimit limits.maxRecords (otherCount + 1 : Nat)))) :=
      ⟨.success trivial, rfl⟩
    exact warned.bind fun _ _ _ => same.close none
  · simp only [full, if_false]
    cases SourceLine.fields limits.spareCalls (count + 1 : Nat) (Text.chomp text).toList with
    | error fault =>
        cases fault with
        | broken cause => exact ⟨.rejected rfl rfl, rfl⟩
        | tooDeep => exact ⟨.failure .tooDeep, rfl⟩
    | ok line =>
        have accepted : Traced.Matches Progress.SameUpToLines (draft.accept limits line)
            (other.accept limits { line with number := (otherCount + 1 : Nat) }) :=
          same.accept rfl
        apply accepted.bind
        intro progress otherProgress progressed
        cases progress with
        | more next =>
            cases otherProgress with
            | more otherNext => exact rest next otherNext (Progress.more.inj progressed)
            | done program => cases progressed
        | done program =>
            cases otherProgress with
            | more next => cases progressed
            | done otherProgram => exact ⟨.success (Progress.done.inj progressed), rfl⟩

/-- Edits change nothing but positions. -/
theorem SameUpToLines.readLines {ending : Ending} {count otherCount : Nat}
    {lines others : List String} (edited : Edited lines others) (same : draft.SameUpToLines other) :
    Traced.Matches Program.SameUpToLines (Draft.readLines limits ending count draft lines)
      (Draft.readLines limits ending otherCount other others) := by
  -- The induction follows the edits, not the reading: an inserted or a deleted comment
  -- moves only one of the two runs on.
  induction edited generalizing count otherCount draft other with
  | nil => exact same.exhausted count otherCount ending
  | @kept text _ _ _ induction =>
      cases comment : SourceLine.isComment (Text.chomp text) with
      | true =>
          rw [readLines_comment comment, readLines_comment comment]
          exact induction same
      | false => exact same.record comment comment (fun _ => rfl) fun _ _ next => induction next
  | inserted comment _ induction =>
      rw [readLines_comment comment]
      exact induction same
  | deleted comment _ induction =>
      rw [readLines_comment comment]
      exact induction same
  | replaced equal _ induction =>
      have fields := equal.fields limits.spareCalls
      obtain ⟨_, number, line, split, otherSplit⟩ := equal
      exact same.record (SourceLine.not_comment_of_split split)
        (SourceLine.not_comment_of_split otherSplit) fields fun _ _ next => induction next

/-- Neither the lines behind nor the ending matter to a line that stops the reading. -/
theorem Stops.anyRest {ending : Ending} {count : Nat} {text : String} {rest : List String}
    {run : Traced Program} (stops : Stops limits ending count draft (text :: rest) run)
    (others : List String) (otherEnding : Ending) :
    Stops limits otherEnding count draft (text :: others) run := by
  cases stops with
  | ceiling record full => exact .ceiling record full
  | malformed record space split => exact .malformed record space split
  | refused record space split accepted => exact .refused record space split accepted
  | ended record space split accepted => exact .ended record space split accepted

end Draft

namespace Program

variable {limits : Limits} {source other : Source}

theorem read_edited {ending : Ending} {lines others : List String}
    (edited : Edited lines others) :
    Traced.Matches SameUpToLines (Program.read limits { lines, ending })
      (Program.read limits { lines := others, ending }) :=
  Draft.SameUpToLines.readLines edited rfl

/-- What stands behind the line at which reading finishes is never looked at. -/
theorem read_finished {before : List String} {last : String}
    (finishes : source.FinishesAt limits before last) (tail : List String) (ending : Ending) :
    Program.read limits { lines := before ++ last :: tail, ending } =
      Program.read limits source := by
  obtain ⟨lines, sourceEnding⟩ := source
  obtain ⟨rest, events, draft, run, rfl, reads, stops⟩ := finishes
  rw [reads.read, reads.read, stops.readLines, (stops.anyRest tail ending).readLines]

theorem read_revised (revised : source.Revised limits other) :
    Traced.Matches SameUpToLines (Program.read limits source) (Program.read limits other) := by
  cases revised with
  | whole edited => exact read_edited edited
  | @finished before others tail last ending finishes edited =>
      rw [← read_finished finishes tail ending]
      have lengthened := edited.append tail
      rw [List.append_assoc, List.singleton_append] at lengthened
      exact read_edited lengthened

end Program

theorem Record.exists_line {number : Int → Int} {record other : Record}
    (same : other.renumbered number = record.renumbered number) :
    ∃ line, other = { record with line } := by
  simp only [renumbered, Record.mk.injEq] at same
  obtain ⟨_, operation, label, operands, location, size⟩ := same
  refine ⟨other.line, ?_⟩
  rw [← operation, ← label, ← operands, ← location, ← size]

namespace ListingRow

/-- Only the row of a record holds a number. -/
theorem eq_or_source {number : Int → Int} {row other : ListingRow}
    (same : other.renumbered number = row.renumbered number) :
    other = row ∨ ∃ storage record line,
      row = .source storage record ∧ other = .source storage { record with line } := by
  cases row with
  | source storage record =>
      cases other with
      | source otherStorage otherRecord =>
          obtain ⟨rfl, records⟩ := ListingRow.source.inj same
          obtain ⟨line, rfl⟩ := Record.exists_line records
          exact .inr ⟨otherStorage, record, line, rfl, rfl⟩
      | _ => cases same
  | _ =>
      cases other with
      | source otherStorage otherRecord => cases same
      | _ => exact .inl same

theorem sameUpToNumber {number : Int → Int} {row other : ListingRow} (fits : row.Fits)
    (same : other.renumbered number = row.renumbered number) :
    Listing.SameUpToNumber row.text other.text := by
  rcases eq_or_source same with rfl | ⟨storage, record, line, rfl, rfl⟩
  · exact .same _
  · exact .numbered (length_front fits) (toList_text _)
      (toList_text (.source storage { record with line }))

theorem sameUpToNumbers {number : Int → Int} {rows others : List ListingRow}
    (fits : ∀ row ∈ rows, row.Fits)
    (same : others.map (renumbered number) = rows.map (renumbered number)) :
    List.Forall₂ Listing.SameUpToNumber (rows.map text) (others.map text) := by
  induction rows generalizing others with
  | nil =>
      rw [List.map_nil, List.map_eq_nil_iff] at same
      rw [same]
      exact .nil
  | cons row rows induction =>
      rw [List.forall_mem_cons] at fits
      rw [List.map_cons] at same
      obtain ⟨other, others, rfl, first, rest⟩ := List.map_eq_cons_iff.mp same
      exact .cons (sameUpToNumber fits.1 first) (induction fits.2 rest)

end ListingRow

namespace Program

variable {limits : Limits} {program other : Program}

theorem encode_sameUpToLines (assembled : program.Assembled limits)
    (same : program.SameUpToLines other) :
    SameOutcome Output.SameUpToNumbers program.encode other.encode := by
  have renumbered : renumberedOutcome unnumbered (Output.renumbered unnumbered) other.encode =
      renumberedOutcome unnumbered (Output.renumbered unnumbered) program.encode := by
    rw [← encode_renumbered, ← encode_renumbered, same]
  apply (sameOutcome_of_renumbered renumbered).mono
  intro output changed encoded equal
  obtain ⟨outputs, rows⟩ := rowsOf_of_encode assembled encoded
  obtain ⟨object, listing⟩ := Output.mk.inj equal
  constructor
  · exact congrArg (List.map ObjectRecord.text) object
  · exact ListingRow.sameUpToNumbers rows.fits listing

end Program

namespace Session

/-- Sources with the same records up to the end assemble alike. -/
theorem assembleSource_revised {first second : Session} {source other : Source}
    (sameLimits : second.limits = first.limits)
    (revised : source.Revised first.limits other) :
    SameResult (first.assembleSource source) (second.assembleSource other) := by
  obtain ⟨programs, codes⟩ := Program.read_revised revised
  constructor
  · rw [outcome_assembleSource, outcome_assembleSource, sameLimits, outcome_assemble,
      outcome_assemble]
    apply programs.bind
    intro program changed read same
    exact Program.encode_sameUpToLines (Program.assembled_of_read read) same
  · rw [warnings_assembleSource, warnings_assembleSource, sameLimits, warnings_assemble,
      warnings_assemble]
    exact codes

end Session

/-- Reading finishes at the line that completes a program. -/
theorem Source.finishesAt_of_read {limits : Limits} {before : List String} {last : String}
    {ending : Ending}
    (completed : (Program.read limits { lines := before ++ [last], ending }).outcome.isOk = true)
    (incomplete : (Program.read limits { lines := before, ending }).outcome.isOk = false)
    (rest : List String) :
    ({ lines := before ++ last :: rest, ending } : Source).FinishesAt limits before last := by
  obtain ⟨lines, left, events, draft, run, cut, reads, stops, read⟩ :=
    Program.read_stops limits { lines := before ++ [last], ending }
  rw [read] at completed
  cases left with
  | nil =>
      cases stops
      cases completed
  | cons text more =>
      rcases List.eq_nil_or_concat more with rfl | ⟨passed, final, rfl⟩
      · obtain ⟨rfl, same⟩ := List.append_inj' cut rfl
        obtain rfl := List.singleton_inj.mp same
        exact ⟨rest, events, draft, run, rfl, reads, stops.anyRest rest ending⟩
      · -- Otherwise the lines before the last would complete it already.
        rw [List.concat_eq_append, ← List.cons_append, ← List.append_assoc] at cut
        obtain ⟨rfl, _⟩ := List.append_inj' cut rfl
        rw [reads.read, (stops.anyRest passed ending).readLines] at incomplete
        rw [incomplete] at completed
        cases completed

/-- A segment with comments of both kinds, up to its last record. -/
def annotatedLines : List String :=
  ["; loads a word again and again",
    "SPARE    .ORIG   x3000",
    "AGAIN    LD      R1,=#7",
    "         BRP     AGAIN    ; while positive"]

/-- The segment, with its lines once more behind the end. -/
def annotatedSource : Source :=
  .ofLines (annotatedLines ++ "         .END" :: annotatedLines)

/-- The segment with other comments. -/
def strippedLines : List String :=
  ["SPARE    .ORIG   x3000",
    "; begin",
    "AGAIN    LD      R1,=#7",
    "         BRP     AGAIN;loop",
    ";",
    "         .END"]

/-- The segment in a supply that breaks off behind its end. -/
def strippedSource : Source :=
  { lines := strippedLines ++ ["no record"], ending := .unreadable (.missing "tail.asm") }

theorem strippedSource_revised :
    (({ limits := {} } : Session).assembleSource annotatedSource).2.outcome.isOk = true ∧
      Session.SameResult (({ limits := {} } : Session).assembleSource annotatedSource)
        (({ limits := {} } : Session).assembleSource strippedSource) := by
  have finishes : annotatedSource.FinishesAt {} annotatedLines "         .END" :=
    Source.finishesAt_of_read (by decide +kernel) (by decide +kernel) annotatedLines
  have same : SameRecord "         BRP     AGAIN    ; while positive"
      "         BRP     AGAIN;loop" := by
    have splits : (SourceLine.split defaultSpareCalls 4
        (Text.chomp "         BRP     AGAIN    ; while positive")).isOk = true := by decide +kernel
    obtain ⟨line, split⟩ := exists_eq_ok splits
    exact ⟨defaultSpareCalls, 4, line, split, Eq.trans (by decide +kernel) split⟩
  have edited : Edited (annotatedLines ++ ["         .END"]) strippedLines := by
    refine .deleted ?_ (.kept (.inserted ?_ (.kept (.replaced same (.inserted ?_ (.kept .nil))))))
    · decide +kernel
    · decide +kernel
    · decide +kernel
  exact ⟨by decide +kernel, Session.assembleSource_revised rfl (.finished finishes edited)⟩

end Lc3Assembler
