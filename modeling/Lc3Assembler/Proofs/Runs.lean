import Lc3Assembler.Proofs.Drafts
import Lc3Assembler.Proofs.Warnings

/-!
# Runs over the lines of a source

`Draft.Reads` says which draft some lines lead to and what is noted on the way,
and `Draft.Stops` how reading ends at a draft with the lines that are left.
Every run is the one followed by the other, so a property of programs that were
read needs one argument for a record that is taken in: `Program.read_invariant`.
-/

namespace Lc3Assembler

namespace Draft

/-- The draft that lines lead to, and the events noted on the way. -/
inductive Reads (limits : Limits) : List String → List Event → Draft → Prop where
  | start : Reads limits [] [] {}
  | comment {lines : List String} {events : List Event} {draft : Draft} {text : String}
      (reads : Reads limits lines events draft)
      (silent : SourceLine.isComment (Text.chomp text) = true) :
      Reads limits (lines ++ [text]) events draft
  | record {lines : List String} {events noted : List Event} {draft next : Draft}
      {text : String} {line : SourceLine}
      (reads : Reads limits lines events draft)
      (record : SourceLine.isComment (Text.chomp text) = false)
      (space : (draft.program.records.length : Int) < limits.maxRecords)
      (split : SourceLine.split limits.spareCalls (lines.length + 1 : Nat) (Text.chomp text) =
        .ok line)
      (accepted : draft.accept limits line = { events := noted, outcome := .ok (.more next) }) :
      Reads limits (lines ++ [text]) (events ++ noted) next

/-- How reading ends at a draft after `count` lines, with some lines left. -/
inductive Stops (limits : Limits) (ending : Ending) (count : Nat) (draft : Draft) :
    List String → Traced Program → Prop where
  | exhausted :
      Stops limits ending count draft [] (Traced.fail (draft.exhausted count ending))
  | ceiling {text : String} {rest : List String}
      (record : SourceLine.isComment (Text.chomp text) = false)
      (full : limits.maxRecords ≤ draft.program.records.length) :
      Stops limits ending count draft (text :: rest) (do
        Traced.note (.warned (.recordLimit limits.maxRecords (count + 1 : Nat)))
        draft.close none)
  | malformed {text : String} {rest : List String} {failure : Failure}
      (record : SourceLine.isComment (Text.chomp text) = false)
      (space : (draft.program.records.length : Int) < limits.maxRecords)
      (split : SourceLine.split limits.spareCalls (count + 1 : Nat) (Text.chomp text) =
        .error failure) :
      Stops limits ending count draft (text :: rest) (Traced.fail failure)
  | refused {text : String} {rest : List String} {line : SourceLine} {noted : List Event}
      {failure : Failure}
      (record : SourceLine.isComment (Text.chomp text) = false)
      (space : (draft.program.records.length : Int) < limits.maxRecords)
      (split : SourceLine.split limits.spareCalls (count + 1 : Nat) (Text.chomp text) = .ok line)
      (accepted : draft.accept limits line = { events := noted, outcome := .error failure }) :
      Stops limits ending count draft (text :: rest)
        { events := noted, outcome := .error failure }
  | ended {text : String} {rest : List String} {line : SourceLine} {noted : List Event}
      {program : Program}
      (record : SourceLine.isComment (Text.chomp text) = false)
      (space : (draft.program.records.length : Int) < limits.maxRecords)
      (split : SourceLine.split limits.spareCalls (count + 1 : Nat) (Text.chomp text) = .ok line)
      (accepted :
        draft.accept limits line = { events := noted, outcome := .ok (.done program) }) :
      Stops limits ending count draft (text :: rest)
        { events := noted, outcome := .ok program }

theorem readLines_comment {limits : Limits} {ending : Ending} {count : Nat} {draft : Draft}
    {text : String} {rest : List String}
    (silent : SourceLine.isComment (Text.chomp text) = true) :
    readLines limits ending count draft (text :: rest) =
      readLines limits ending (count + 1) draft rest := by
  rw [readLines]
  simp only [silent, if_true]

theorem readLines_more {limits : Limits} {ending : Ending} {count : Nat} {draft next : Draft}
    {text : String} {rest : List String} {line : SourceLine} {noted : List Event}
    (record : SourceLine.isComment (Text.chomp text) = false)
    (space : (draft.program.records.length : Int) < limits.maxRecords)
    (split : SourceLine.split limits.spareCalls (count + 1 : Nat) (Text.chomp text) = .ok line)
    (accepted : draft.accept limits line = { events := noted, outcome := .ok (.more next) }) :
    readLines limits ending count draft (text :: rest) =
      { events := noted ++ (readLines limits ending (count + 1) next rest).events
        outcome := (readLines limits ending (count + 1) next rest).outcome } := by
  rw [readLines]
  simp only [record, Bool.false_eq_true, if_false, Int.not_le.mpr space, split, accepted]
  rfl

/-- The rest of a source is read after the lines before it. -/
theorem Reads.read {limits : Limits} {lines rest : List String} {events : List Event}
    {draft : Draft} {ending : Ending} (reads : Reads limits lines events draft) :
    Program.read limits { lines := lines ++ rest, ending } =
      { events := events ++ (readLines limits ending lines.length draft rest).events
        outcome := (readLines limits ending lines.length draft rest).outcome } := by
  induction reads generalizing rest with
  | start => rfl
  | comment _ silent induction =>
      rw [List.append_assoc, List.singleton_append, induction, readLines_comment silent,
        List.length_append, List.length_singleton]
  | record _ record space split accepted induction =>
      rw [List.append_assoc, List.singleton_append, induction,
        readLines_more record space split accepted, List.length_append,
        List.length_singleton, List.append_assoc]

theorem Stops.readLines {limits : Limits} {ending : Ending} {count : Nat} {draft : Draft}
    {rest : List String} {run : Traced Program}
    (stops : Stops limits ending count draft rest run) :
    Draft.readLines limits ending count draft rest = run := by
  cases stops with
  | exhausted => rfl
  | ceiling record full =>
      rw [Draft.readLines]
      simp only [record, Bool.false_eq_true, if_false, full, if_true]
  | malformed record space split =>
      rw [Draft.readLines]
      simp only [record, Bool.false_eq_true, if_false, Int.not_le.mpr space, split]
  | refused record space split accepted =>
      rw [Draft.readLines]
      simp only [record, Bool.false_eq_true, if_false, Int.not_le.mpr space, split, accepted]
      rfl
  | ended record space split accepted =>
      rw [Draft.readLines]
      simp only [record, Bool.false_eq_true, if_false, Int.not_le.mpr space, split, accepted]
      exact congrArg (Traced.mk · _) (List.append_nil _)

theorem Reads.stops {limits : Limits} {lines : List String} {events : List Event}
    {draft : Draft} (reads : Reads limits lines events draft) (ending : Ending)
    (rest : List String) :
    ∃ passed left noted last run,
      rest = passed ++ left ∧ Reads limits (lines ++ passed) noted last ∧
      Stops limits ending (lines ++ passed).length last left run := by
  induction rest generalizing lines events draft with
  | nil => exact ⟨[], [], events, draft, _, rfl, by simpa using reads, .exhausted⟩
  | cons text rest induction =>
      -- Reading goes on behind this line.
      have goOn {noted : List Event} {next : Draft}
          (further : Reads limits (lines ++ [text]) noted next) :
          ∃ passed left noted last run,
            text :: rest = passed ++ left ∧ Reads limits (lines ++ passed) noted last ∧
            Stops limits ending (lines ++ passed).length last left run := by
        obtain ⟨passed, left, all, last, run, rfl, reached, stops⟩ := induction further
        refine ⟨text :: passed, left, all, last, run, rfl, ?_, ?_⟩
        · simpa using reached
        · simpa using stops
      cases record : SourceLine.isComment (Text.chomp text) with
      | true => exact goOn (.comment reads record)
      | false =>
          have stop {run : Traced Program}
              (stops : Stops limits ending lines.length draft (text :: rest) run) :
              ∃ passed left noted last run,
                text :: rest = passed ++ left ∧ Reads limits (lines ++ passed) noted last ∧
                Stops limits ending (lines ++ passed).length last left run :=
            ⟨[], text :: rest, events, draft, run, rfl, by simpa using reads,
              by simpa using stops⟩
          by_cases full : limits.maxRecords ≤ draft.program.records.length
          · exact stop (.ceiling record full)
          · have space := Int.not_le.mp full
            cases split : SourceLine.split limits.spareCalls (lines.length + 1 : Nat)
                (Text.chomp text) with
            | error failure => exact stop (.malformed record space split)
            | ok line =>
                cases accepted : draft.accept limits line with
                | mk noted outcome =>
                    cases outcome with
                    | error failure => exact stop (.refused record space split accepted)
                    | ok progress =>
                        cases progress with
                        | more next => exact goOn (.record reads record space split accepted)
                        | done program => exact stop (.ended record space split accepted)

/-- An accepted line adds one record. -/
theorem Takes.records {limits : Limits} {draft next : Draft} {line : SourceLine}
    (taken : Takes limits draft line next) (invariant : draft.Invariant limits) :
    ∃ location size,
      next.program.records = draft.program.records ++ [line.record location size] := by
  cases taken with
  | first _ _ _ _ _ => exact ⟨none, 0, rfl⟩
  | @later prepared size located _ accepted prepares _ =>
      obtain ⟨frame, _⟩ := prepares.frame_and_pools accepted invariant.pools
      rw [← frame.records]
      exact ⟨if located then some prepared.location else none, size, rfl⟩

theorem Reads.reachable {limits : Limits} {lines : List String} {events : List Event}
    {draft : Draft} (reads : Reads limits lines events draft) : Reachable limits draft := by
  induction reads with
  | start => exact .start
  | comment _ _ induction => exact induction
  | record _ _ _ split accepted induction =>
      exact .step induction split (accept_eq_ok (congrArg Traced.outcome accepted))

/-- A property of the number of lines, the warnings so far and the draft that
holds at the start and that every line keeps. -/
structure Inductive (limits : Limits) (motive : Nat → List Diagnostic → Draft → Prop) :
    Prop where
  start : motive 0 [] {}
  comment : ∀ {count warnings draft}, motive count warnings draft →
    motive (count + 1) warnings draft
  record : ∀ {count warnings draft next line text progress},
    Reachable limits draft → motive count warnings draft →
    SourceLine.split limits.spareCalls (count + 1 : Nat) text = .ok line →
    (draft.accept limits line).outcome = .ok progress → Takes limits draft line next →
    motive (count + 1) (warnings ++ (draft.accept limits line).warnings) next

theorem Reads.invariant {limits : Limits} {motive : Nat → List Diagnostic → Draft → Prop}
    {lines : List String} {events : List Event} {draft : Draft}
    (kept : Inductive limits motive) (reads : Reads limits lines events draft) :
    motive lines.length (warningsOf events) draft := by
  induction reads with
  | start => exact kept.start
  | comment _ _ induction =>
      rw [List.length_append, List.length_singleton]
      exact kept.comment induction
  | record reads _ _ split accepted induction =>
      have outcome := congrArg Traced.outcome accepted
      have step := kept.record reads.reachable induction split outcome (accept_eq_ok outcome)
      rw [List.length_append, List.length_singleton, warningsOf, List.filterMap_append]
      rw [accepted] at step
      exact step

end Draft

namespace Program

/-- Every run reads some lines and then stops. -/
theorem read_stops (limits : Limits) (source : Source) :
    ∃ lines rest events draft run,
      source.lines = lines ++ rest ∧ Draft.Reads limits lines events draft ∧
      Draft.Stops limits source.ending lines.length draft rest run ∧
      Program.read limits source =
        { events := events ++ run.events, outcome := run.outcome } := by
  obtain ⟨lines, rest, events, draft, run, cut, reads, stops⟩ :=
    (Draft.Reads.start : Draft.Reads limits [] [] {}).stops source.ending source.lines
  rw [List.nil_append] at reads stops
  refine ⟨lines, rest, events, draft, run, cut, reads, stops, ?_⟩
  obtain ⟨all, ending⟩ := source
  subst cut
  rw [reads.read, stops.readLines]

/-- What holds at the start and is kept by every line holds of the draft that
is closed in the end. -/
theorem read_invariant {limits : Limits} {source : Source} {program : Program}
    {motive : Nat → List Diagnostic → Draft → Prop} (kept : Draft.Inductive limits motive)
    (outcome : (Program.read limits source).outcome = .ok program) :
    ∃ count warnings last exec,
      motive count warnings last ∧ (last.close exec).outcome = .ok program ∧
      ((Program.read limits source).warnings = warnings ∨
        (Program.read limits source).warnings =
          warnings ++ [.recordLimit limits.maxRecords (count + 1 : Nat)]) := by
  obtain ⟨lines, rest, events, draft, run, _, reads, stops, same⟩ := read_stops limits source
  have invariant := reads.invariant kept
  rw [same] at outcome ⊢
  rw [Traced.warnings_after]
  cases stops with
  | exhausted => cases outcome
  | ceiling _ _ =>
      refine ⟨lines.length, warningsOf events, draft, none, invariant, ?_, .inr ?_⟩
      · simpa using outcome
      · rw [Traced.warnings_bind_of_silent fun _ => Draft.warnings_close draft none]
        rfl
  | malformed _ _ _ => cases outcome
  | refused _ _ _ _ => cases outcome
  | ended _ _ split accepted =>
      cases outcome
      have done := congrArg Traced.outcome accepted
      obtain ⟨exec, last, taken, closed⟩ := Draft.accept_eq_ok done
      have step := kept.record reads.reachable invariant split done taken
      rw [accepted] at step
      exact ⟨_, _, last, exec, step, closed, .inl rfl⟩

end Program

end Lc3Assembler
