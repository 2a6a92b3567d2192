import Lc3Assembler.Proofs.Meaning
import Lc3Assembler.Proofs.Names
import Lc3Assembler.Proofs.SessionRuns

/-!
# The record ceiling

A run that reaches the record ceiling closes its draft as it is.  The same lines
with a bare end behind them lead to the same draft with one more record, and
that record neither changes how the draft is closed nor what the other records
are encoded to.
-/

namespace Lc3Assembler

/-- A line that ends a segment, with neither a label nor an operand. -/
def SourceLine.bareEnd (number : Int) : SourceLine :=
  { number, label := none, operation := .directive .endSegment, operands := [] }

namespace Program

/-- A program with one more record. -/
def withRecord (program : Program) (record : Record) : Program :=
  { program with records := program.records ++ [record] }

theorem placeLiterals_withRecord (program : Program) (record : Record) (start : Int) :
    (program.withRecord record).placeLiterals start =
      (fun placed => (placed.1.withRecord record, placed.2)) <$> program.placeLiterals start := by
  simp only [placeLiterals, ifOpen, withRecord, literalsPlaced]
  by_cases closed : program.frozen = true
  · simp [closed, Functor.map, Except.map]
  · by_cases placed : program.literals.any Literal.isPlaced = true
    · simp [closed, placed, Functor.map, Except.map]
    · by_cases beyond : program.literals ≠ [] ∧ maxAddress < start + program.literals.length
      · simp [closed, placed, beyond, Functor.map, Except.map]
      · simp only [closed, placed, beyond]
        rfl

theorem freeze_withRecord (program : Program) (record : Record) :
    (program.withRecord record).freeze =
      (fun frozen => frozen.withRecord record) <$> program.freeze := by
  have entries : undefinedEntry? (program.withRecord record) = undefinedEntry? program := rfl
  have externals : definedExternal? (program.withRecord record) = definedExternal? program := rfl
  have first : (program.withRecord record).firstAddress = program.firstAddress := rfl
  have exec : (program.withRecord record).execAddress = program.execAddress := rfl
  have frozen : (program.withRecord record).frozen = program.frozen := rfl
  rw [freeze, entries, externals, first, exec, frozen, freeze]
  cases program.frozen with
  | true => rfl
  | false =>
      cases undefinedEntry? program with
      | some entry => rfl
      | none =>
          cases definedExternal? program with
          | some defined => rfl
          | none =>
              simp only [Bool.false_eq_true, if_false]
              split
              · rfl
              · split
                · rfl
                · rfl

end Program

namespace Draft

/-- A record without storage changes nothing about closing a draft. -/
theorem close_extended (draft : Draft) (line : SourceLine) (exec : Option Int) :
    (draft.extended line 0 false).close exec =
      (fun program => program.withRecord (line.record none 0)) <$> draft.close exec := by
  have program : (draft.extended line 0 false).program =
      draft.program.withRecord (line.record none 0) := rfl
  have location : (draft.extended line 0 false).location = draft.location := Int.add_zero _
  unfold close
  rw [program, location, Program.placeLiterals_withRecord]
  cases draft.program.placeLiterals draft.location with
  | error failure => rfl
  | ok placed =>
      let complete : Program :=
        { placed.1 with
          length := placed.2 - placed.1.firstAddress
          execAddress := exec.getD
            (if placed.1.relocatable then draft.location else placed.1.firstAddress) }
      change (Traced.lift (complete.withRecord (line.record none 0)).freeze >>= _) =
        _ <$> (Traced.lift complete.freeze >>= _)
      rw [Program.freeze_withRecord]
      cases complete.freeze with
      | error failure => rfl
      | ok program => rfl

theorem accept_bareEnd {limits : Limits} {draft : Draft} (started : draft.started = true)
    (unfrozen : draft.program.frozen = false) (number : Int) :
    draft.accept limits (.bareEnd number) =
      Progress.done <$> (draft.extended (.bareEnd number) 0 false).close none := by
  have ordered : draft.checkOrder (.bareEnd number) = .ok () := by
    simp [checkOrder, started, SourceLine.bareEnd]
  have appended : draft.append (.bareEnd number) 0 false =
      pure (draft.extended (.bareEnd number) 0 false) := by
    simp [append, Program.addRecord, Program.ifOpen, unfrozen, extended, SourceLine.record]
  change (Traced.lift (draft.checkOrder (.bareEnd number)) >>= fun _ => _) = _
  rw [ordered]
  change Progress.done <$>
    (draft.append (.bareEnd number) 0 false >>= fun last => last.close none) = _
  rw [appended]
  rfl

theorem poolAll_maxRecords (limits : Limits) (most number : Int) (program : Program)
    (operands : List Operand) :
    poolAll { limits with maxRecords := most } number program operands =
      poolAll limits number program operands := by
  induction operands generalizing program with
  | nil => rfl
  | cons operand operands induction =>
      rw [poolAll, poolAll]
      exact congrArg _ (funext induction)

/-- What a line does depends on the limits of the tables only. -/
theorem accept_maxRecords (limits : Limits) (most : Int) (draft : Draft) (line : SourceLine) :
    draft.accept { limits with maxRecords := most } line = draft.accept limits line := by
  unfold accept
  split
  · rfl
  · simp only [instruction, poolAll_maxRecords]
    rfl
  · rename_i order _
    cases order <;> rfl

namespace Reads

variable {limits : Limits} {lines : List String} {events : List Event} {draft : Draft}

/-- Lines lead to the same draft under a higher ceiling. -/
theorem raise (reads : Reads limits lines events draft) {most : Int}
    (higher : limits.maxRecords ≤ most) :
    Reads { limits with maxRecords := most } lines events draft := by
  induction reads with
  | start => exact .start
  | comment _ silent induction => exact .comment induction silent
  | record _ record space split accepted induction =>
      rw [← accept_maxRecords limits most] at accepted
      exact .record induction record (Int.lt_of_lt_of_le space higher) split accepted

theorem records_le (reads : Reads limits lines events draft) (positive : 0 ≤ limits.maxRecords) :
    (draft.program.records.length : Int) ≤ limits.maxRecords := by
  induction reads with
  | start => exact positive
  | comment _ _ induction => exact induction
  | record reads _ space _ accepted _ =>
      obtain ⟨_, _, records⟩ := Takes.records (accept_eq_ok (congrArg Traced.outcome accepted))
        reads.reachable.invariant
      rw [records, List.length_append, List.length_singleton]
      omega

/-- Only the ceiling itself warns of the ceiling. -/
theorem code_ne_recordLimit (reads : Reads limits lines events draft) :
    ∀ warning ∈ warningsOf events, warning.code ≠ .recordLimit := by
  have kept : Inductive limits fun _ warnings _ =>
      ∀ warning ∈ warnings, Diagnostic.code warning ≠ .recordLimit := by
    constructor
    · simp
    · intro count warnings draft unchanged
      exact unchanged
    · intro count warnings draft next line text progress _ earlier _ _ _ warning member
      rcases List.mem_append.mp member with old | new
      · exact earlier warning old
      · exact (accept_warns limits draft line warning new).code_ne_recordLimit
  exact reads.invariant kept

end Reads

/-- A bare end closes the draft at once. -/
theorem readLines_bareEnd {limits : Limits} {ending : Ending} {spareCalls count : Nat}
    {draft : Draft} {text : String} (started : draft.started = true)
    (unfrozen : draft.program.frozen = false)
    (space : (draft.program.records.length : Int) < limits.maxRecords)
    (split : SourceLine.split spareCalls (count + 1 : Nat) (Text.chomp text) =
      .ok (.bareEnd (count + 1 : Nat))) :
    readLines limits ending count draft [text] =
      (draft.extended (.bareEnd (count + 1 : Nat)) 0 false).close none := by
  have record := SourceLine.not_comment_of_split split
  rw [readLines]
  simp only [record, Bool.false_eq_true, if_false, Int.not_le.mpr space,
    SourceLine.split_of_split split limits.spareCalls, accept_bareEnd started unfrozen]
  obtain ⟨events, outcome⟩ := (draft.extended (.bareEnd (count + 1 : Nat)) 0 false).close none
  cases outcome with
  | error failure => rfl
  | ok program =>
      change ({ events := (events ++ []) ++ [], outcome := .ok program } : Traced Program) = _
      rw [List.append_nil, List.append_nil]

end Draft

namespace Program

/-- A run that warns of the ceiling closes the draft that it has reached. -/
theorem read_ceiling {limits : Limits} {source : Source} {warning : Diagnostic}
    (reported : warning ∈ (Program.read limits source).warnings)
    (code : warning.code = .recordLimit) :
    ∃ lines text rest events draft run,
      source.lines = lines ++ text :: rest ∧ Draft.Reads limits lines events draft ∧
      limits.maxRecords ≤ draft.program.records.length ∧
      warning = .recordLimit limits.maxRecords (lines.length + 1 : Nat) ∧
      run = (Traced.note (.warned warning) >>= fun _ => draft.close none) ∧
      Program.read limits source =
        { events := events ++ run.events, outcome := run.outcome } := by
  obtain ⟨lines, rest, events, draft, run, cut, reads, stops, same⟩ := read_stops limits source
  have noticed : warning ∈ run.warnings := by
    rw [same, Traced.warnings_after] at reported
    rcases List.mem_append.mp reported with early | late
    · exact absurd code (reads.code_ne_recordLimit warning early)
    · exact late
  -- A record that is accepted or refused warns of full tables only.
  have tables {line : SourceLine} {noted : List Event} {outcome : Except Failure Progress}
      (accepted : draft.accept limits line = { events := noted, outcome }) :
      warning ∉ warningsOf noted := by
    intro member
    have warns := draft.accept_warns limits line warning
    rw [accepted] at warns
    exact (warns member).code_ne_recordLimit code
  cases stops with
  | exhausted => cases noticed
  | malformed _ _ _ => cases noticed
  | refused _ _ _ accepted => exact absurd noticed (tables accepted)
  | ended _ _ _ accepted => exact absurd noticed (tables accepted)
  | @ceiling text rest _ full =>
      rw [Traced.warnings_bind_of_silent fun _ => Draft.warnings_close draft none] at noticed
      have exact : warning = .recordLimit limits.maxRecords (lines.length + 1 : Nat) :=
        List.mem_singleton.mp noticed
      refine ⟨lines, text, rest, events, draft, _, cut, reads, full, exact, rfl, ?_⟩
      rw [same, exact]

theorem encodeRecords_withRecord (program : Program) (record : Record)
    (records : List Record) :
    (program.withRecord record).encodeRecords records = program.encodeRecords records :=
  encodeRecords_congr fun _ _ _ => ⟨fun _ _ => rfl, fun _ _ _ => rfl⟩

end Program

/-- The same failure, or the same object file and a listing with one row more. -/
inductive AddsRow (row : ListingRow) : Except Failure Output → Except Failure Output → Prop where
  | failure (failure : Failure) : AddsRow row (.error failure) (.error failure)
  | success {output more : Output} {before after : List ListingRow}
      (object : more.object = output.object) (listing : output.listing = before ++ after)
      (listed : more.listing = before ++ row :: after) : AddsRow row (.ok output) (.ok more)

namespace Program

theorem encode_withRecord (program : Program) {record : Record}
    (operation : record.operation = .directive .endSegment) :
    AddsRow (.source .none record) program.encode (program.withRecord record).encode := by
  have row : (program.withRecord record).encodeRecord record = .ok (rowOnly .none record) := by
    simp [encodeRecord, operation]
  have entries :
      (program.withRecord record).encodeEntries (program.withRecord record).entries =
        program.encodeEntries program.entries :=
    encodeEntries_congr fun _ _ => rfl
  have records :
      (program.withRecord record).encodeRecords (program.withRecord record).records =
        (fun body => body.append (rowOnly .none record)) <$>
          program.encodeRecords program.records :=
    (encodeRecords_concat row).trans (congrArg _ (encodeRecords_withRecord program record _))
  have frozen : (program.withRecord record).frozen = program.frozen := rfl
  rw [encode, encode, entries, records, frozen]
  cases program.frozen with
  | false => exact .failure _
  | true =>
      cases program.encodeEntries program.entries with
      | error failure => exact .failure failure
      | ok declared =>
          cases program.encodeRecords program.records with
          | error failure => exact .failure failure
          | ok body =>
              refine .success ?_ rfl ?_
              · simp [Output.append, rowOnly, withRecord]
              · simp [Output.append, rowOnly, withRecord]

end Program

/-- One run gives what another gives, with one more row in the listing and without
the warning of the ceiling. -/
structure EndsLike (row : ListingRow) (reached ended : Traced (Program × Output)) : Prop where
  output : AddsRow row (Prod.snd <$> reached.outcome) (Prod.snd <$> ended.outcome)
  warnings : ended.warnings = reached.warnings.filter (·.code ≠ .recordLimit)

/-- Reaching the record ceiling at some line is a bare end on that line, under a
ceiling that admits it. -/
theorem recordCeiling_endsLike {limits : Limits} {source : Source} {warning : Diagnostic}
    (positive : 1 ≤ limits.maxRecords)
    (reported : warning ∈ (Program.read limits source).warnings)
    (code : warning.code = .recordLimit) :
    ∃ count : Nat, warning.line = some (count + 1 : Nat) ∧ count < source.lines.length ∧
      ∀ text ending,
        SourceLine.split limits.spareCalls (count + 1 : Nat) (Text.chomp text) =
          .ok (.bareEnd (count + 1 : Nat)) →
        EndsLike (.source .none ((SourceLine.bareEnd (count + 1 : Nat)).record none 0))
          (assemble limits source)
          (assemble { limits with maxRecords := limits.maxRecords + 1 }
            { lines := source.lines.take count ++ [text], ending }) := by
  obtain ⟨lines, last, rest, events, draft, run, cut, reads, full, exact, closes, read⟩ :=
    Program.read_ceiling reported code
  have invariant := reads.reachable.invariant
  have most := reads.records_le (by omega)
  have started : draft.started = true := by
    cases unstarted : draft.started with
    | true => rfl
    | false =>
        rw [invariant.unstarted unstarted] at full
        have empty : limits.maxRecords ≤ 0 := full
        omega
  refine ⟨lines.length, by rw [exact]; rfl, by simp [cut], ?_⟩
  intro text ending split
  have same : source.lines.take lines.length = lines := by rw [cut, List.take_left]
  have again :
      Program.read { limits with maxRecords := limits.maxRecords + 1 }
        { lines := lines ++ [text], ending } = _ :=
    (reads.raise (Int.le_add_one (Int.le_refl limits.maxRecords))).read
  rw [Draft.readLines_bareEnd started invariant.unfrozen (Int.lt_add_one_of_le most) split,
    Draft.close_extended] at again
  rw [same]
  constructor
  · rw [outcome_assemble, outcome_assemble, read, again, closes, Traced.outcome_map,
      Traced.outcome_note_bind]
    cases (draft.close none).outcome with
    | error failure => exact .failure failure
    | ok program => exact program.encode_withRecord rfl
  · have kept : (warningsOf events).filter (·.code ≠ .recordLimit) = warningsOf events :=
      List.filter_eq_self.mpr fun other member => by
        simpa using reads.code_ne_recordLimit other member
    rw [warnings_assemble, warnings_assemble, read, again, Traced.warnings_after,
      Traced.warnings_after, Traced.warnings_map, Draft.warnings_close, List.append_nil, closes,
      Traced.warnings_bind_of_silent fun _ => Draft.warnings_close draft none,
      List.filter_append, kept]
    simp [Event.warning?, code]

/-- A segment that two records fill; the literal comes behind the last of them. -/
def cutShort : Source :=
  .ofLines
    ["CUT      .ORIG   x3000",
      "; the ceiling leaves out the lines behind the load",
      "         LD      R1,=#7",
      "         .FILL   x1",
      "         .END"]

/-- The part of the segment that is read, with an end of its own. -/
def endedShort : Source :=
  .ofLines
    ["CUT      .ORIG   x3000",
      "; the ceiling leaves out the lines behind the load",
      "         LD      R1,=#7",
      "         .END"]

theorem cutShort_endsLike :
    (assemble { maxRecords := 2 } cutShort).outcome.isOk = true ∧
      EndsLike (.source .none ((SourceLine.bareEnd 4).record none 0))
        (assemble { maxRecords := 2 } cutShort) (assemble { maxRecords := 3 } endedShort) := by
  refine ⟨by decide +kernel, ?_⟩
  have reported : Diagnostic.recordLimit 2 4 ∈
      (Program.read { maxRecords := 2 } cutShort).warnings := by decide +kernel
  obtain ⟨count, line, _, ends⟩ := recordCeiling_endsLike (by decide) reported rfl
  have third : count = 3 := by
    have same : (4 : Int) = (count + 1 : Nat) := Option.some.inj line
    omega
  subst third
  exact ends "         .END" .complete (by decide +kernel)

end Lc3Assembler
