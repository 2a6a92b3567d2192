import Lc3Assembler.Proofs.Reading

/-!
# Warnings of a run

Taking in a record warns only of full tables, and every such warning names the
line of the record.  `Traced.Warns` bounds the warnings of a computation, with
one rule for each way of composing computations.  `Draft.Labels` says what a
label does to the symbol table and what it warns of.
-/

namespace Lc3Assembler

namespace Traced

/-- The warnings of a computation, in order. -/
def warnings (run : Traced α) : List Diagnostic :=
  warningsOf run.events

@[simp] theorem warnings_pure (value : α) : (pure value : Traced α).warnings = [] := rfl

@[simp] theorem warnings_note (event : Event) :
    (note event).warnings = event.warning?.toList := by
  cases event <;> rfl

theorem warnings_after (earlier : List Event) (run : Traced α) :
    warnings { events := earlier ++ run.events, outcome := run.outcome } =
      warningsOf earlier ++ run.warnings :=
  List.filterMap_append

theorem warnings_bind_of_ok {first : Traced α} {next : α → Traced β} {value : α}
    (succeeds : first.outcome = .ok value) :
    (first >>= next).warnings = first.warnings ++ (next value).warnings := by
  obtain ⟨events, outcome⟩ := first
  cases succeeds
  exact List.filterMap_append

theorem warnings_bind_of_error {first : Traced α} {next : α → Traced β} {failure : Failure}
    (fails : first.outcome = .error failure) : (first >>= next).warnings = first.warnings := by
  obtain ⟨events, outcome⟩ := first
  cases fails
  rfl

@[simp] theorem warnings_lift_bind {outcome : Except Failure α} {next : α → Traced β} {value : α}
    (succeeds : outcome = .ok value) : (lift outcome >>= next).warnings = (next value).warnings :=
  warnings_bind_of_ok succeeds

/-- What warns of nothing adds nothing. -/
theorem warnings_bind_of_silent {first : Traced α} {next : α → Traced β}
    (silent : ∀ value, (next value).warnings = []) :
    (first >>= next).warnings = first.warnings := by
  cases outcome : first.outcome with
  | ok value => rw [warnings_bind_of_ok outcome, silent, List.append_nil]
  | error failure => exact warnings_bind_of_error outcome

@[simp] theorem warnings_map (change : α → β) (run : Traced α) :
    (change <$> run).warnings = run.warnings := by
  obtain ⟨events, outcome⟩ := run
  cases outcome with
  | ok value => exact (List.filterMap_append).trans (List.append_nil _)
  | error failure => rfl

/-- Every warning of a computation is of an allowed form. -/
def Warns (allowed : Diagnostic → Prop) (run : Traced α) : Prop :=
  ∀ warning ∈ run.warnings, allowed warning

theorem warns_of_silent {allowed : Diagnostic → Prop} {run : Traced α}
    (silent : run.warnings = []) : run.Warns allowed := by
  intro warning member
  rw [silent] at member
  cases member

theorem warns_lift {allowed : Diagnostic → Prop} (outcome : Except Failure α) :
    (lift outcome).Warns allowed :=
  warns_of_silent rfl

theorem warns_bind_iff {allowed : Diagnostic → Prop} {first : Traced α}
    {next : α → Traced β} :
    (first >>= next).Warns allowed ↔
      first.Warns allowed ∧ ∀ value, first.outcome = .ok value → (next value).Warns allowed := by
  cases outcome : first.outcome with
  | error failure =>
      rw [Warns, warnings_bind_of_error outcome]
      simp [Warns]
  | ok value =>
      rw [Warns, warnings_bind_of_ok outcome]
      simp [Warns, or_imp, forall_and]

theorem Warns.bind {allowed : Diagnostic → Prop} {first : Traced α} {next : α → Traced β}
    (head : first.Warns allowed)
    (tail : ∀ value, first.outcome = .ok value → (next value).Warns allowed) :
    (first >>= next).Warns allowed :=
  warns_bind_iff.mpr ⟨head, tail⟩

theorem Warns.mono {allowed wider : Diagnostic → Prop} {run : Traced α}
    (warns : run.Warns allowed) (implies : ∀ warning, allowed warning → wider warning) :
    run.Warns wider := by
  intro warning member
  exact implies warning (warns warning member)

theorem Warns.map {allowed : Diagnostic → Prop} {run : Traced α} (change : α → β)
    (warns : run.Warns allowed) : (change <$> run).Warns allowed := by
  rw [Warns, warnings_map]
  exact warns

end Traced

/-- The warning that a label of some line is dropped. -/
def SymbolWarning (limits : Limits) (number : Int) (warning : Diagnostic) : Prop :=
  ∃ name, warning = .symbolTableFull limits.maxSymbols name number

/-- The warning that a literal of some line is dropped. -/
def LiteralWarning (limits : Limits) (number : Int) (warning : Diagnostic) : Prop :=
  ∃ text, warning = .literalPoolFull limits.maxLiterals text number

/-- The warning that a table is full at some line. -/
def TableWarning (limits : Limits) (number : Int) (warning : Diagnostic) : Prop :=
  SymbolWarning limits number warning ∨ LiteralWarning limits number warning

theorem SymbolWarning.code {limits : Limits} {number : Int} {warning : Diagnostic}
    (dropped : SymbolWarning limits number warning) : warning.code = .symbolTableFull := by
  obtain ⟨name, rfl⟩ := dropped
  rfl

theorem LiteralWarning.code {limits : Limits} {number : Int} {warning : Diagnostic}
    (dropped : LiteralWarning limits number warning) : warning.code = .literalPoolFull := by
  obtain ⟨text, rfl⟩ := dropped
  rfl

theorem TableWarning.code_ne_recordLimit {limits : Limits} {number : Int}
    {warning : Diagnostic} (full : TableWarning limits number warning) :
    warning.code ≠ .recordLimit := by
  rcases full with symbol | literal
  · rw [symbol.code]
    decide
  · rw [literal.code]
    decide

/-- The warning that a literal among some operands is dropped. -/
def OperandWarning (limits : Limits) (number : Int) (operands : List Operand)
    (warning : Diagnostic) : Prop :=
  ∃ operand ∈ operands, operand.kind = .literal ∧
    warning = .literalPoolFull limits.maxLiterals operand.text number

/-- What a line can be warned of: its label or one of its literals is dropped. -/
inductive LineWarning (limits : Limits) (line : SourceLine) (warning : Diagnostic) : Prop where
  | label {name : String} (labelled : line.label = some name)
      (dropped : warning = .symbolTableFull limits.maxSymbols name line.number)
  | literal (dropped : OperandWarning limits line.number line.operands warning)

theorem OperandWarning.literal {limits : Limits} {number : Int} {operands : List Operand}
    {warning : Diagnostic} (dropped : OperandWarning limits number operands warning) :
    LiteralWarning limits number warning := by
  obtain ⟨operand, _, _, rfl⟩ := dropped
  exact ⟨operand.text, rfl⟩

theorem LineWarning.table {limits : Limits} {line : SourceLine} {warning : Diagnostic}
    (dropped : LineWarning limits line warning) : TableWarning limits line.number warning := by
  cases dropped with
  | @label name _ dropped => exact .inl ⟨name, dropped⟩
  | literal dropped => exact .inr dropped.literal

namespace Draft

/-- What a label does to a draft, with the warning that a full table gives. -/
inductive Labels (limits : Limits) (draft : Draft) (line : SourceLine) (value : Int)
    (relocatable : Bool) : List Diagnostic → Draft → Prop where
  | unlabelled (label : line.label = none) :
      Labels limits draft line value relocatable [] draft
  | dropped {name : String} (label : line.label = some name)
      (new : draft.program.symbol? name = none)
      (full : limits.maxSymbols ≤ draft.program.symbols.length) :
      Labels limits draft line value relocatable
        [.symbolTableFull limits.maxSymbols name line.number] draft
  | entered {name : String} (label : line.label = some name)
      (new : draft.program.symbol? name = none)
      (space : (draft.program.symbols.length : Int) < limits.maxSymbols) :
      Labels limits draft line value relocatable []
        { draft with
          program :=
            { draft.program with
              symbols := draft.program.symbols ++
                [Symbol.define name value relocatable (some line.number)] } }

theorem define_labels {limits : Limits} {draft defined : Draft} {line : SourceLine}
    {value : Int} {relocatable : Bool}
    (outcome : (draft.define limits line value relocatable).outcome = .ok defined) :
    Labels limits draft line value relocatable
      (draft.define limits line value relocatable).warnings defined := by
  unfold define at outcome ⊢
  cases label : line.label with
  | none =>
      simp only [label] at outcome
      cases outcome
      exact .unlabelled label
  | some name =>
      simp only [label] at outcome ⊢
      split at outcome
      · rename_i full
        cases outcome
        rw [if_pos full]
        simp only [Bool.and_eq_true, Bool.not_eq_true', decide_eq_true_eq, Program.hasSymbol,
          Option.isSome_eq_false_iff, Option.isNone_iff_eq_none] at full
        exact .dropped label full.1 full.2
      · rename_i space
        rw [if_neg space]
        simp only [Traced.outcome_bind, Traced.outcome_lift, Traced.outcome_note, ok_bind,
          Traced.outcome_pure, bind_eq_ok_iff] at outcome
        obtain ⟨program, added, result⟩ := outcome
        rw [Traced.warnings_lift_bind added]
        simp only [Program.defineSymbol, Program.ifOpen] at added
        split at added
        · cases added
        · split at added
          · cases added
          · rename_i new
            cases added
            cases result
            have room : (draft.program.symbols.length : Int) < limits.maxSymbols := by
              simpa [Program.hasSymbol, new] using space
            exact .entered label new room

theorem define_warns (limits : Limits) (draft : Draft) (line : SourceLine) (value : Int)
    (relocatable : Bool) :
    (draft.define limits line value relocatable).Warns (LineWarning limits line) := by
  unfold define
  split
  · exact Traced.warns_of_silent rfl
  · rename_i name labelled
    split
    · intro warning member
      exact .label labelled (List.mem_singleton.mp member)
    · refine (Traced.warns_lift _).bind ?_
      intro program _
      exact Traced.warns_of_silent rfl

theorem pool_warns (limits : Limits) (number : Int) (program : Program) (operand : Operand) :
    (pool limits number program operand).Warns (OperandWarning limits number [operand]) := by
  unfold pool
  split
  · rename_i form
    split
    · exact Traced.warns_of_silent rfl
    · split
      · exact Traced.warns_of_silent rfl
      · split
        · intro warning member
          exact ⟨operand, List.mem_cons_self, congrArg Form.kind form,
            List.mem_singleton.mp member⟩
        · refine (Traced.warns_lift _).bind ?_
          intro pooled _
          exact Traced.warns_of_silent rfl
  · exact Traced.warns_of_silent rfl

theorem poolAll_warns (limits : Limits) (number : Int) (program : Program)
    (operands : List Operand) :
    (poolAll limits number program operands).Warns (OperandWarning limits number operands) := by
  induction operands generalizing program with
  | nil => exact Traced.warns_of_silent rfl
  | cons operand operands induction =>
      refine ((pool_warns limits number program operand).mono ?_).bind ?_
      · rintro warning ⟨other, member, dropped⟩
        exact ⟨other, by simp [List.mem_singleton.mp member], dropped⟩
      · intro pooled _
        refine (induction pooled).mono ?_
        rintro warning ⟨other, member, dropped⟩
        exact ⟨other, List.mem_cons_of_mem operand member, dropped⟩

@[simp] theorem warnings_append (draft : Draft) (line : SourceLine) (size : Int)
    (located : Bool) : (draft.append line size located).warnings = [] := by
  unfold append
  split
  · rfl
  · simp only
    cases Program.addRecord _ _ with
    | error failure => rfl
    | ok program => rfl

@[simp] theorem warnings_close (draft : Draft) (exec : Option Int) :
    (draft.close exec).warnings = [] := by
  unfold close
  cases draft.program.placeLiterals draft.location with
  | error failure => rfl
  | ok placed =>
      simp only [Traced.lift_ok_bind]
      cases Program.freeze _ with
      | error failure => rfl
      | ok program => rfl

theorem append_warns {allowed : Diagnostic → Prop} (draft : Draft) (line : SourceLine)
    (size : Int) (located : Bool) : (draft.append line size located).Warns allowed :=
  Traced.warns_of_silent (warnings_append draft line size located)

theorem defineHere_warns (limits : Limits) (draft : Draft) (line : SourceLine) :
    (draft.defineHere limits line).Warns (LineWarning limits line) :=
  draft.define_warns limits line _ _

theorem warnings_declaration
    (add : Program → String → Option Int → Except Failure Program) (limits : Limits)
    (draft : Draft) (line : SourceLine) :
    (declaration add limits draft line).warnings = (draft.defineHere limits line).warnings := by
  apply Traced.warnings_bind_of_silent
  intro defined
  exact Traced.warnings_bind_of_silent fun program => warnings_append _ _ _ _

theorem declaration_warns
    (add : Program → String → Option Int → Except Failure Program) (limits : Limits)
    (draft : Draft) (line : SourceLine) :
    (declaration add limits draft line).Warns (LineWarning limits line) := by
  rw [Traced.Warns, warnings_declaration]
  exact defineHere_warns limits draft line

theorem origin_warns {allowed : Diagnostic → Prop} (draft : Draft) (line : SourceLine) :
    (draft.origin line).Warns allowed := by
  unfold origin
  split
  · exact Traced.warns_of_silent rfl
  · refine (Traced.warns_lift _).bind ?_
    intro load _
    refine (Traced.warns_of_silent rfl).bind ?_
    intro _ _
    exact append_warns _ _ _ _

theorem obey_warns (limits : Limits) (draft : Draft) (line : SourceLine) (order : Directive) :
    (draft.obey limits line order).Warns (LineWarning limits line) := by
  cases order with
  | orig => exact (origin_warns draft line).map _
  | endSegment =>
      apply Traced.Warns.map
      unfold finish
      split
      · exact Traced.warns_of_silent rfl
      · refine (Traced.warns_lift _).bind ?_
        intro exec _
        refine (append_warns _ _ _ _).bind ?_
        intro last _
        exact Traced.warns_of_silent (warnings_close last exec)
  | equ =>
      apply Traced.Warns.map
      unfold equate
      split
      · exact Traced.warns_of_silent rfl
      · refine (Traced.warns_lift _).bind ?_
        intro operand _
        refine (Traced.warns_lift _).bind ?_
        rintro ⟨value, relocatable⟩ _
        refine (draft.define_warns limits line _ _).bind ?_
        intro defined _
        exact append_warns _ _ _ _
  | fill =>
      refine (defineHere_warns limits draft line).bind ?_
      intro defined _
      exact (append_warns _ _ _ _).map _
  | strz =>
      apply Traced.Warns.map
      refine (defineHere_warns limits draft line).bind ?_
      intro defined _
      refine (Traced.warns_lift _).bind ?_
      intro operand _
      exact append_warns _ _ _ _
  | blkw =>
      apply Traced.Warns.map
      refine (Traced.warns_lift _).bind ?_
      intro operand _
      refine (Traced.warns_lift _).bind ?_
      intro words _
      refine (defineHere_warns limits draft line).bind ?_
      intro defined _
      exact append_warns _ _ _ _
  | ent => exact (declaration_warns _ limits draft line).map _
  | ext => exact (declaration_warns _ limits draft line).map _

/-- A record warns only of its own label and literals. -/
theorem accept_lineWarns (limits : Limits) (draft : Draft) (line : SourceLine) :
    (draft.accept limits line).Warns (LineWarning limits line) := by
  unfold accept
  split
  · exact Traced.warns_of_silent rfl
  · refine (Traced.warns_lift _).bind ?_
    intro _ _
    refine (Traced.warns_lift _).bind ?_
    intro _ _
    refine (Traced.warns_lift _).bind ?_
    intro _ _
    apply Traced.Warns.map
    refine (defineHere_warns limits draft line).bind ?_
    intro defined _
    refine ((poolAll_warns _ _ _ _).mono fun _ => .literal).bind ?_
    intro program _
    exact append_warns _ _ _ _
  · refine (Traced.warns_lift _).bind ?_
    intro _ _
    refine (Traced.warns_lift _).bind ?_
    intro _ _
    refine (Traced.warns_lift _).bind ?_
    intro _ _
    exact obey_warns _ _ _ _

/-- A record warns only of full tables, and only with its own line. -/
theorem accept_warns (limits : Limits) (draft : Draft) (line : SourceLine) :
    (draft.accept limits line).Warns (TableWarning limits line.number) :=
  (draft.accept_lineWarns limits line).mono fun _ => LineWarning.table

/-- The record that opens a segment enters nothing into the tables. -/
theorem warnings_accept_orig {limits : Limits} {draft : Draft} {line : SourceLine}
    (operation : line.operation = .directive .orig) :
    (draft.accept limits line).warnings = [] := by
  have silent : (draft.accept limits line).Warns fun _ => False := by
    simp only [accept, operation]
    refine (Traced.warns_lift _).bind ?_
    intro _ _
    refine (Traced.warns_lift _).bind ?_
    intro _ _
    refine (Traced.warns_lift _).bind ?_
    intro _ _
    exact (origin_warns draft line).map _
  exact List.eq_nil_iff_forall_not_mem.mpr silent

/-- The value that the label of a line gets. -/
inductive Evaluates (draft : Draft) (line : SourceLine) : Int → Bool → Prop where
  | equate {operand : Operand} {value : Int} {relocatable : Bool}
      (operation : line.operation = .directive .equ)
      (first : firstOperand line = .ok operand)
      (evaluated : draft.equateValue line operand = .ok (value, relocatable)) :
      Evaluates draft line value relocatable
  | here (operation : line.operation ≠ .directive .equ) :
      Evaluates draft line draft.location draft.program.relocatable

theorem checkOrder_of_started {draft : Draft} {line : SourceLine}
    (ordered : draft.checkOrder line = .ok ()) (started : draft.started = true)
    {order : Directive} (operation : line.operation = .directive order) : order ≠ .orig := by
  intro opens
  exact (checkOrder_eq_ok ordered).mp started (by rw [operation, opens])

theorem obey_noted {limits : Limits} {draft : Draft} {line : SourceLine} {order : Directive}
    {progress : Progress} {value : Int} {relocatable : Bool}
    (operation : line.operation = .directive order) (later : order ≠ .orig)
    (outcome : (draft.obey limits line order).outcome = .ok progress)
    (evaluates : Evaluates draft line value relocatable) :
    (draft.obey limits line order).warnings =
      (draft.define limits line value relocatable).warnings := by
  -- Only an equate evaluates its operand for the label.
  have here (other : order ≠ .equ) :
      value = draft.location ∧ relocatable = draft.program.relocatable := by
    cases evaluates with
    | equate equates _ _ =>
        rw [operation] at equates
        cases equates
        exact absurd rfl other
    | here _ => exact ⟨rfl, rfl⟩
  cases order with
  | orig => exact absurd rfl later
  | endSegment =>
      obtain ⟨rfl, rfl⟩ := here (by decide)
      simp only [obey, Traced.outcome_map, map_eq_ok_iff, finish] at outcome
      obtain ⟨program, outcome, rfl⟩ := outcome
      simp only [obey, Traced.warnings_map, finish]
      split at outcome
      · cases outcome
      · rename_i unlabelled
        simp only [Traced.outcome_bind, Traced.outcome_lift, bind_eq_ok_iff] at outcome
        obtain ⟨exec, executed, _⟩ := outcome
        simp only [unlabelled, define, Traced.warnings_pure]
        rw [Traced.warnings_lift_bind executed,
          Traced.warnings_bind_of_silent fun last => warnings_close last exec, warnings_append]
  | equ =>
      simp only [obey, Traced.outcome_map, map_eq_ok_iff, equate] at outcome
      obtain ⟨next, outcome, rfl⟩ := outcome
      simp only [obey, Traced.warnings_map, equate]
      split at outcome
      · cases outcome
      · rename_i labelled
        simp only [Traced.outcome_bind, Traced.outcome_lift, bind_eq_ok_iff] at outcome
        obtain ⟨operand, first, ⟨otherValue, otherRelocatable⟩, evaluated, _⟩ := outcome
        cases evaluates with
        | here other => exact absurd operation other
        | equate _ otherFirst otherEvaluated =>
            cases first.symm.trans otherFirst
            cases evaluated.symm.trans otherEvaluated
            rw [if_neg labelled, Traced.warnings_lift_bind first,
              Traced.warnings_lift_bind evaluated,
              Traced.warnings_bind_of_silent fun defined => warnings_append defined line 0 false]
  | fill =>
      obtain ⟨rfl, rfl⟩ := here (by decide)
      simp only [obey]
      rw [Traced.warnings_bind_of_silent fun defined => by simp]
      rfl
  | strz =>
      obtain ⟨rfl, rfl⟩ := here (by decide)
      simp only [obey, Traced.warnings_map, string]
      rw [Traced.warnings_bind_of_silent fun defined => ?_]
      · rfl
      · rw [Traced.warnings_bind_of_silent fun operand => warnings_append _ _ _ _]
        rfl
  | blkw =>
      obtain ⟨rfl, rfl⟩ := here (by decide)
      simp only [obey, block, Traced.outcome_map, Traced.outcome_bind, Traced.outcome_lift,
        map_eq_ok_iff, bind_eq_ok_iff] at outcome
      obtain ⟨next, ⟨operand, first, words, counted, _⟩, rfl⟩ := outcome
      simp only [obey, Traced.warnings_map, block]
      rw [Traced.warnings_lift_bind first, Traced.warnings_lift_bind counted,
        Traced.warnings_bind_of_silent fun defined => warnings_append _ _ _ _]
      rfl
  | ent =>
      obtain ⟨rfl, rfl⟩ := here (by decide)
      simp only [obey, Traced.warnings_map]
      exact warnings_declaration _ limits draft line
  | ext =>
      obtain ⟨rfl, rfl⟩ := here (by decide)
      simp only [obey, Traced.warnings_map]
      exact warnings_declaration _ limits draft line

/-- What an accepted record warns of: first its label, then its literals. -/
theorem accept_noted {limits : Limits} {draft : Draft} {line : SourceLine}
    {progress : Progress} {value : Int} {relocatable : Bool}
    (outcome : (draft.accept limits line).outcome = .ok progress)
    (started : draft.started = true) (evaluates : Evaluates draft line value relocatable) :
    ∃ pooled,
      (draft.accept limits line).warnings =
        (draft.define limits line value relocatable).warnings ++ pooled ∧
      ∀ warning ∈ pooled, LiteralWarning limits line.number warning := by
  unfold accept at outcome ⊢
  split at outcome
  · cases outcome
  · rename_i mnemonic operation
    simp only [Traced.outcome_bind, Traced.outcome_lift, Traced.outcome_map,
      bind_eq_ok_iff, map_eq_ok_iff, instruction] at outcome
    obtain ⟨_, ordered, _, counted, _, checked, next, result, rfl⟩ := outcome
    obtain ⟨defined, labelled, program, pooled, _⟩ := result
    cases evaluates with
    | equate equates _ _ =>
        rw [operation] at equates
        cases equates
    | here _ =>
        have literals := poolAll_warns limits line.number defined.program line.operands
        refine ⟨_, ?_, literals.mono fun _ => OperandWarning.literal⟩
        rw [Traced.warnings_lift_bind ordered, Traced.warnings_lift_bind counted,
          Traced.warnings_lift_bind checked, Traced.warnings_map, instruction,
          Traced.warnings_bind_of_ok labelled,
          Traced.warnings_bind_of_silent fun program => warnings_append _ _ _ _]
        rfl
  · rename_i order operation
    simp only [Traced.outcome_bind, Traced.outcome_lift, bind_eq_ok_iff] at outcome
    obtain ⟨_, ordered, _, counted, _, checked, obeyed⟩ := outcome
    have later : order ≠ .orig := checkOrder_of_started ordered started operation
    refine ⟨[], ?_, by simp⟩
    rw [Traced.warnings_lift_bind ordered, Traced.warnings_lift_bind counted,
      Traced.warnings_lift_bind checked, List.append_nil]
    exact obey_noted operation later obeyed evaluates

end Draft

end Lc3Assembler
