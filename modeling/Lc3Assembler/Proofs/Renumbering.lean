import Lc3Assembler.Proofs.Reading

/-!
# Numbering lines differently

The number of a line goes into records, symbols, declarations, warnings and
errors, and nothing is ever decided by it.  So every operation on drafts commutes
with a change of the numbers: what it does to renumbered input is what it does
to the input, renumbered.
-/

namespace Lc3Assembler

section

variable (number : Int → Int)

def SourceLine.renumbered (line : SourceLine) : SourceLine :=
  { line with number := number line.number }

def Record.renumbered (record : Record) : Record :=
  { record with line := number record.line }

def Symbol.renumbered (symbol : Symbol) : Symbol :=
  { symbol with line := symbol.line.map number }

def Declaration.renumbered (declaration : Declaration) : Declaration :=
  { declaration with line := declaration.line.map number }

def Program.renumbered (program : Program) : Program :=
  { program with
    records := program.records.map (Record.renumbered number)
    symbols := program.symbols.map (Symbol.renumbered number)
    entries := program.entries.map (Declaration.renumbered number)
    externals := program.externals.map (Declaration.renumbered number) }

def Draft.renumbered (draft : Draft) : Draft :=
  { draft with program := draft.program.renumbered number }

def Progress.renumbered : Progress → Progress
  | .more draft => .more (draft.renumbered number)
  | .done program => .done (program.renumbered number)

/-- Only a duplicate refers to another line. -/
def Cause.renumbered : Cause → Cause
  | .duplicateSymbol name firstLine => .duplicateSymbol name (firstLine.map number)
  | cause => cause

def AssemblyError.renumbered (error : AssemblyError) : AssemblyError :=
  { cause := error.cause.renumbered number, line := error.line.map number }

def Failure.renumbered : Failure → Failure
  | .rejected error => .rejected (error.renumbered number)
  | failure => failure

def Diagnostic.renumbered (diagnostic : Diagnostic) : Diagnostic :=
  { diagnostic with line := diagnostic.line.map number }

def Event.renumbered : Event → Event
  | .symbolDefined line name value => .symbolDefined (number line) name value
  | .literalPooled line text => .literalPooled (number line) text
  | .warned diagnostic => .warned (diagnostic.renumbered number)
  | .failed error => .failed (error.renumbered number)
  | event => event

/-- An outcome with a changed value or a renumbered failure. -/
def renumberedOutcome (change : α → β) : Except Failure α → Except Failure β
  | .ok value => .ok (change value)
  | .error failure => .error (failure.renumbered number)

def Traced.renumbered (change : α → β) (run : Traced α) : Traced β :=
  { events := run.events.map (Event.renumbered number)
    outcome := renumberedOutcome number change run.outcome }

end

section

variable {number : Int → Int}

theorem renumberedOutcome_bind {change : α → γ} {result : β → δ} {first : Except Failure α}
    {start : Except Failure γ} {next : α → Except Failure β} {other : γ → Except Failure δ}
    (same : start = renumberedOutcome number change first)
    (step : ∀ value, other (change value) = renumberedOutcome number result (next value)) :
    (start >>= other) = renumberedOutcome number result (first >>= next) := by
  subst same
  cases first with
  | error failure => rfl
  | ok value => exact step value

theorem renumberedOutcome_ite {change : α → β} (condition : Prop) [Decidable condition]
    (first second : Except Failure α) :
    renumberedOutcome number change (if condition then first else second) =
      if condition then renumberedOutcome number change first
      else renumberedOutcome number change second :=
  apply_ite (renumberedOutcome number change) condition first second

namespace Traced

theorem renumbered_bind {change : α → γ} {result : β → δ} {first : Traced α}
    {start : Traced γ} {next : α → Traced β} {other : γ → Traced δ}
    (same : start = first.renumbered number change)
    (step : ∀ value, other (change value) = (next value).renumbered number result) :
    (start >>= other) = (first >>= next).renumbered number result := by
  subst same
  obtain ⟨events, outcome⟩ := first
  cases outcome with
  | error failure => rfl
  | ok value =>
      change Traced.mk (events.map _ ++ (other (change value)).events) _ =
        Traced.mk ((events ++ (next value).events).map _) _
      rw [step, List.map_append]
      rfl

theorem renumbered_map {change : α → γ} {result : β → δ} {first : Traced α}
    {start : Traced γ} {after : α → β} {other : γ → δ}
    (same : start = first.renumbered number change)
    (step : ∀ value, other (change value) = result (after value)) :
    other <$> start = (after <$> first).renumbered number result := by
  subst same
  obtain ⟨events, outcome⟩ := first
  cases outcome with
  | error failure => rfl
  | ok value =>
      change Traced.mk (events.map _ ++ []) (.ok (other (change value))) =
        Traced.mk ((events ++ []).map _) (.ok (result (after value)))
      rw [step, List.append_nil, List.append_nil]

theorem renumbered_note_bind {result : β → δ} {event noted : Event} {next : Unit → Traced β}
    {other : Unit → Traced δ} (same : noted = event.renumbered number)
    (step : other () = (next ()).renumbered number result) :
    (note noted >>= other) = (note event >>= next).renumbered number result := by
  subst same
  exact renumbered_bind rfl fun _ : Unit => step

theorem renumbered_ite {change : α → β} (condition : Prop) [Decidable condition]
    (first second : Traced α) :
    (if condition then first else second).renumbered number change =
      if condition then first.renumbered number change
      else second.renumbered number change :=
  apply_ite (Traced.renumbered number change) condition first second

theorem lift_renumbered {change : α → β} {first : Except Failure α} {start : Except Failure β}
    (same : start = renumberedOutcome number change first) :
    lift start = (lift first).renumbered number change :=
  congrArg lift same

end Traced

namespace Program

variable {program : Program} {name : String}

theorem symbol?_renumbered (program : Program) (name : String) :
    (program.renumbered number).symbol? name =
      (program.symbol? name).map (Symbol.renumbered number) := by
  rw [symbol?, symbol?, renumbered, List.find?_map]
  rfl

theorem hasSymbol_renumbered (program : Program) (name : String) :
    (program.renumbered number).hasSymbol name = program.hasSymbol name := by
  rw [hasSymbol, hasSymbol, symbol?_renumbered, Option.isSome_map]

theorem isExternal_renumbered (program : Program) (name : String) :
    (program.renumbered number).isExternal name = program.isExternal name := by
  rw [isExternal, isExternal, renumbered, List.any_map]
  rfl

theorem ifOpen_renumbered {change : α → β} {first : Except Failure α}
    {second : Except Failure β} (same : second = renumberedOutcome number change first) :
    (program.renumbered number).ifOpen second =
      renumberedOutcome number change (program.ifOpen first) := by
  rw [ifOpen, ifOpen, renumberedOutcome_ite, same]
  rfl

theorem addRecord_renumbered (program : Program) (record : Record) :
    (program.renumbered number).addRecord (record.renumbered number) =
      renumberedOutcome number (Program.renumbered number) (program.addRecord record) := by
  apply ifOpen_renumbered
  simp [renumberedOutcome, renumbered]

theorem defineSymbol_renumbered (program : Program) (name : String) (value : Int)
    (relocatable : Bool) (line : Option Int) :
    (program.renumbered number).defineSymbol name value relocatable (line.map number) =
      renumberedOutcome number (Program.renumbered number)
        (program.defineSymbol name value relocatable line) := by
  apply ifOpen_renumbered
  rw [symbol?_renumbered]
  cases program.symbol? name with
  | some first => rfl
  | none => simp [renumberedOutcome, renumbered, Symbol.renumbered, Symbol.define]

theorem declare_renumbered (declarations : List Declaration) (name : String)
    (line : Option Int) :
    declare (declarations.map (Declaration.renumbered number)) name (line.map number) =
      (declare declarations name line).map (Declaration.renumbered number) := by
  rw [declare, declare, List.any_map, apply_ite (List.map _), List.map_append]
  rfl

theorem addEntry_renumbered (program : Program) (name : String) (line : Option Int) :
    (program.renumbered number).addEntry name (line.map number) =
      renumberedOutcome number (Program.renumbered number) (program.addEntry name line) := by
  apply ifOpen_renumbered
  simp only [renumberedOutcome, renumbered, declare_renumbered]

theorem addExternal_renumbered (program : Program) (name : String) (line : Option Int) :
    (program.renumbered number).addExternal name (line.map number) =
      renumberedOutcome number (Program.renumbered number) (program.addExternal name line) := by
  apply ifOpen_renumbered
  simp only [renumberedOutcome, renumbered, declare_renumbered]

theorem addLiteral_renumbered (program : Program) (value : Int) :
    (program.renumbered number).addLiteral value =
      renumberedOutcome number (Prod.map (Program.renumbered number) id)
        (program.addLiteral value) := by
  apply ifOpen_renumbered
  rw [renumberedOutcome_ite]
  rfl

theorem placeLiterals_renumbered (program : Program) (start : Int) :
    (program.renumbered number).placeLiterals start =
      renumberedOutcome number (Prod.map (Program.renumbered number) id)
        (program.placeLiterals start) := by
  apply ifOpen_renumbered
  simp only [renumberedOutcome_ite]
  rfl

theorem undefinedEntry?_renumbered (program : Program) :
    undefinedEntry? (program.renumbered number) =
      program.undefinedEntry?.map (Declaration.renumbered number) := by
  unfold undefinedEntry?
  change (program.entries.map (Declaration.renumbered number)).find? _ = _
  rw [List.find?_map]
  congr 2
  funext declaration
  exact congrArg (!·) (hasSymbol_renumbered program declaration.name)

theorem definedExternal?_renumbered (program : Program) :
    (program.renumbered number).definedExternal? =
      program.definedExternal?.map
        (Prod.map (Declaration.renumbered number) (Symbol.renumbered number)) := by
  unfold definedExternal?
  change (program.externals.map (Declaration.renumbered number)).findSome? _ = _
  induction program.externals with
  | nil => rfl
  | cons external externals induction =>
      rw [List.map_cons, List.findSome?_cons, List.findSome?_cons, induction]
      simp only [Declaration.renumbered, symbol?_renumbered]
      cases program.symbol? external.name with
      | none => rfl
      | some symbol => rfl

theorem freeze_renumbered (program : Program) :
    (program.renumbered number).freeze =
      renumberedOutcome number (Program.renumbered number) program.freeze := by
  rw [freeze, freeze, undefinedEntry?_renumbered, definedExternal?_renumbered,
    renumberedOutcome_ite]
  cases program.undefinedEntry? with
  | some entry => rfl
  | none =>
      cases program.definedExternal? with
      | some defined => rfl
      | none =>
          simp only [renumberedOutcome_ite]
          rfl

end Program

namespace Draft

theorem checkOperand_renumbered (line : SourceLine) (index : Nat) (operand : Operand)
    (allowed : Bool) (expected : List String) :
    checkOperand (line.renumbered number) index operand allowed expected =
      renumberedOutcome number id (checkOperand line index operand allowed expected) := by
  rw [checkOperand, checkOperand, renumberedOutcome_ite, renumberedOutcome_ite]
  rfl

theorem checkSlots_renumbered (line : SourceLine) (index : Nat) (slots : List Slot)
    (operands : List Operand) :
    checkSlots (line.renumbered number) index slots operands =
      renumberedOutcome number id (checkSlots line index slots operands) := by
  induction slots generalizing index operands with
  | nil => rfl
  | cons slot slots induction =>
      cases operands with
      | nil => rfl
      | cons operand operands =>
          exact renumberedOutcome_bind (checkOperand_renumbered line index operand _ _)
            fun _ => induction (index + 1) operands

theorem checkKinds_renumbered (line : SourceLine) (directive : Directive) (index : Nat)
    (operands : List Operand) :
    checkKinds (line.renumbered number) directive index operands =
      renumberedOutcome number id (checkKinds line directive index operands) := by
  induction operands generalizing index with
  | nil => rfl
  | cons operand operands induction =>
      exact renumberedOutcome_bind (checkOperand_renumbered line index operand _ _)
        fun _ => induction (index + 1)

theorem checkCount_renumbered (line : SourceLine) (arity : Nat × Nat) :
    checkCount (line.renumbered number) arity =
      renumberedOutcome number id (checkCount line arity) := by
  rw [checkCount, checkCount, renumberedOutcome_ite]
  rfl

theorem checkOrder_renumbered (draft : Draft) (line : SourceLine) :
    (draft.renumbered number).checkOrder (line.renumbered number) =
      renumberedOutcome number id (draft.checkOrder line) := by
  rw [checkOrder, checkOrder, renumberedOutcome_ite, renumberedOutcome_ite]
  rfl

theorem define_renumbered (limits : Limits) (draft : Draft) (line : SourceLine) (value : Int)
    (relocatable : Bool) :
    (draft.renumbered number).define limits (line.renumbered number) value relocatable =
      (draft.define limits line value relocatable).renumbered number
        (Draft.renumbered number) := by
  obtain ⟨place, label, operation, operands⟩ := line
  cases label with
  | none => rfl
  | some name =>
      simp only [define, SourceLine.renumbered, Traced.renumbered_ite]
      congr 1
      · rw [renumbered, Program.hasSymbol_renumbered]
        simp [Program.renumbered]
      · exact Traced.renumbered_bind
          (Traced.lift_renumbered
            (Program.defineSymbol_renumbered draft.program name value relocatable (some place)))
          fun _ => rfl

theorem defineHere_renumbered (limits : Limits) (draft : Draft) (line : SourceLine) :
    (draft.renumbered number).defineHere limits (line.renumbered number) =
      (draft.defineHere limits line).renumbered number (Draft.renumbered number) :=
  define_renumbered limits draft line draft.location draft.program.relocatable

theorem pool_renumbered (limits : Limits) (place : Int) (program : Program)
    (operand : Operand) :
    pool limits (number place) (program.renumbered number) operand =
      (pool limits place program operand).renumbered number (Program.renumbered number) := by
  unfold pool
  cases operand.form with
  | literal base value =>
      simp only [Traced.renumbered_ite]
      congr 3
      exact Traced.renumbered_bind
        (Traced.lift_renumbered (Program.addLiteral_renumbered program value)) fun _ => rfl
  | _ => rfl

theorem poolAll_renumbered (limits : Limits) (place : Int) (program : Program)
    (operands : List Operand) :
    poolAll limits (number place) (program.renumbered number) operands =
      (poolAll limits place program operands).renumbered number
        (Program.renumbered number) := by
  induction operands generalizing program with
  | nil => rfl
  | cons operand operands induction =>
      exact Traced.renumbered_bind (pool_renumbered limits place program operand) induction

theorem append_renumbered (draft : Draft) (line : SourceLine) (size : Int) (located : Bool) :
    (draft.renumbered number).append (line.renumbered number) size located =
      (draft.append line size located).renumbered number (Draft.renumbered number) := by
  rw [append, append, Traced.renumbered_ite]
  congr 1
  apply Traced.renumbered_bind
  · apply Traced.lift_renumbered
    exact Program.addRecord_renumbered draft.program
      (line.record (if located then some draft.location else none) size)
  · intro program
    rfl

theorem close_renumbered (draft : Draft) (exec : Option Int) :
    (draft.renumbered number).close exec =
      (draft.close exec).renumbered number (Program.renumbered number) := by
  apply Traced.renumbered_bind
    (Traced.lift_renumbered (Program.placeLiterals_renumbered draft.program draft.location))
  rintro ⟨placed, after⟩
  apply Traced.renumbered_bind
  · apply Traced.lift_renumbered
    exact Program.freeze_renumbered
      { placed with
        length := after - placed.firstAddress
        execAddress :=
          exec.getD (if placed.relocatable then draft.location else placed.firstAddress) }
  · intro program
    rfl

theorem loadAddress_renumbered (line : SourceLine) :
    loadAddress (line.renumbered number) =
      renumberedOutcome number id (loadAddress line) := by
  obtain ⟨place, label, operation, operands⟩ := line
  cases operands with
  | nil => rfl
  | cons operand operands =>
      simp only [loadAddress, SourceLine.renumbered]
      cases operand.form.value? with
      | none => rfl
      | some address =>
          simp only [renumberedOutcome_ite]
          rfl

theorem origin_renumbered (draft : Draft) (line : SourceLine) :
    (draft.renumbered number).origin (line.renumbered number) =
      (draft.origin line).renumbered number (Draft.renumbered number) := by
  have label : (line.renumbered number).label = line.label := rfl
  rw [origin, origin, label]
  cases line.label with
  | none => rfl
  | some segment =>
      apply Traced.renumbered_bind (Traced.lift_renumbered (loadAddress_renumbered line))
      intro load
      apply Traced.renumbered_note_bind
      · rfl
      · exact append_renumbered
          { program :=
              { draft.program with
                segment, relocatable := load.isNone, firstAddress := load.getD 0 }
            location := load.getD 0
            started := true }
          line 0 false

theorem symbol?_renumbered (draft : Draft) (name : String) :
    (draft.renumbered number).program.symbol? name =
      (draft.program.symbol? name).map (Symbol.renumbered number) :=
  Program.symbol?_renumbered draft.program name

theorem firstOperand_renumbered (line : SourceLine) :
    firstOperand (line.renumbered number) =
      renumberedOutcome number id (firstOperand line) := by
  obtain ⟨place, label, operation, operands⟩ := line
  cases operands with
  | nil => rfl
  | cons operand operands => rfl

theorem equateValue_renumbered (draft : Draft) (line : SourceLine) (operand : Operand) :
    (draft.renumbered number).equateValue (line.renumbered number) operand =
      renumberedOutcome number id (draft.equateValue line operand) := by
  have external : (draft.renumbered number).program.isExternal operand.text =
      draft.program.isExternal operand.text :=
    Program.isExternal_renumbered draft.program operand.text
  rw [equateValue, equateValue, symbol?_renumbered, external]
  split
  · rw [renumberedOutcome_ite]
    rfl
  · cases draft.program.symbol? operand.text with
    | some symbol => rfl
    | none =>
        simp only [Option.map_none, renumberedOutcome_ite]
        rfl

theorem equate_renumbered (limits : Limits) (draft : Draft) (line : SourceLine) :
    (draft.renumbered number).equate limits (line.renumbered number) =
      (draft.equate limits line).renumbered number (Draft.renumbered number) := by
  rw [equate, equate, Traced.renumbered_ite]
  congr 1
  apply Traced.renumbered_bind (Traced.lift_renumbered (firstOperand_renumbered line))
  intro operand
  apply Traced.renumbered_bind
    (Traced.lift_renumbered (equateValue_renumbered draft line operand))
  rintro ⟨value, relocatable⟩
  apply Traced.renumbered_bind (define_renumbered limits draft line value relocatable)
  intro defined
  exact append_renumbered defined line 0 false

theorem blockWords_renumbered (draft : Draft) (line : SourceLine) (operand : Operand) :
    (draft.renumbered number).blockWords (line.renumbered number) operand =
      renumberedOutcome number id (draft.blockWords line operand) := by
  rw [blockWords, blockWords, symbol?_renumbered]
  split
  · simp only [ok_bind, renumberedOutcome_ite]
    rfl
  · cases draft.program.symbol? operand.text with
    | none => rfl
    | some symbol =>
        simp only [Option.map_some, Symbol.renumbered]
        cases symbol.relocatable with
        | true => rfl
        | false =>
            simp only [Bool.false_eq_true, if_false, ok_bind, renumberedOutcome_ite]
            rfl

theorem block_renumbered (limits : Limits) (draft : Draft) (line : SourceLine) :
    (draft.renumbered number).block limits (line.renumbered number) =
      (draft.block limits line).renumbered number (Draft.renumbered number) := by
  apply Traced.renumbered_bind (Traced.lift_renumbered (firstOperand_renumbered line))
  intro operand
  apply Traced.renumbered_bind
    (Traced.lift_renumbered (blockWords_renumbered draft line operand))
  intro words
  apply Traced.renumbered_bind (defineHere_renumbered limits draft line)
  intro defined
  exact append_renumbered defined line words true

theorem string_renumbered (limits : Limits) (draft : Draft) (line : SourceLine) :
    (draft.renumbered number).string limits (line.renumbered number) =
      (draft.string limits line).renumbered number (Draft.renumbered number) := by
  apply Traced.renumbered_bind (defineHere_renumbered limits draft line)
  intro defined
  apply Traced.renumbered_bind (Traced.lift_renumbered (firstOperand_renumbered line))
  intro operand
  exact append_renumbered defined line (operand.text.length - 1) true

section

variable {add : Program → String → Option Int → Except Failure Program}

theorem declareAll_renumbered
    (adds : ∀ program name line, add (program.renumbered number) name (line.map number) =
      renumberedOutcome number (Program.renumbered number) (add program name line))
    (place : Int) (program : Program) (operands : List Operand) :
    declareAll add (number place) (program.renumbered number) operands =
      renumberedOutcome number (Program.renumbered number)
        (declareAll add place program operands) := by
  induction operands generalizing program with
  | nil => rfl
  | cons operand operands induction =>
      exact renumberedOutcome_bind (adds program operand.text (some place)) induction

theorem declaration_renumbered
    (adds : ∀ program name line, add (program.renumbered number) name (line.map number) =
      renumberedOutcome number (Program.renumbered number) (add program name line))
    (limits : Limits) (draft : Draft) (line : SourceLine) :
    declaration add limits (draft.renumbered number) (line.renumbered number) =
      (declaration add limits draft line).renumbered number (Draft.renumbered number) := by
  apply Traced.renumbered_bind (defineHere_renumbered limits draft line)
  intro defined
  apply Traced.renumbered_bind (Traced.lift_renumbered
    (declareAll_renumbered adds line.number defined.program line.operands))
  intro program
  exact append_renumbered { defined with program } line 0 false

end

theorem execAddress_renumbered (draft : Draft) (line : SourceLine) :
    (draft.renumbered number).execAddress (line.renumbered number) =
      renumberedOutcome number id (draft.execAddress line) := by
  obtain ⟨place, label, operation, operands⟩ := line
  cases operands with
  | nil => rfl
  | cons operand operands =>
      simp only [execAddress, SourceLine.renumbered, symbol?_renumbered]
      split
      · rfl
      · cases draft.program.symbol? operand.text with
        | some symbol => rfl
        | none => rfl

theorem finish_renumbered (draft : Draft) (line : SourceLine) :
    (draft.renumbered number).finish (line.renumbered number) =
      (draft.finish line).renumbered number (Program.renumbered number) := by
  have label : (line.renumbered number).label = line.label := rfl
  rw [finish, finish, label]
  cases line.label with
  | some name => rfl
  | none =>
      apply Traced.renumbered_bind (Traced.lift_renumbered (execAddress_renumbered draft line))
      intro exec
      apply Traced.renumbered_bind (append_renumbered draft line 0 false)
      intro last
      exact close_renumbered last exec

theorem instruction_renumbered (limits : Limits) (draft : Draft) (line : SourceLine) :
    (draft.renumbered number).instruction limits (line.renumbered number) =
      (draft.instruction limits line).renumbered number (Draft.renumbered number) := by
  apply Traced.renumbered_bind (defineHere_renumbered limits draft line)
  intro defined
  apply Traced.renumbered_bind
    (poolAll_renumbered limits line.number defined.program line.operands)
  intro program
  exact append_renumbered { defined with program } line 1 true

theorem obey_renumbered (limits : Limits) (draft : Draft) (line : SourceLine)
    (directive : Directive) :
    (draft.renumbered number).obey limits (line.renumbered number) directive =
      (draft.obey limits line directive).renumbered number (Progress.renumbered number) := by
  cases directive with
  | orig => exact Traced.renumbered_map (origin_renumbered draft line) fun _ => rfl
  | endSegment => exact Traced.renumbered_map (finish_renumbered draft line) fun _ => rfl
  | equ => exact Traced.renumbered_map (equate_renumbered limits draft line) fun _ => rfl
  | fill =>
      apply Traced.renumbered_bind (defineHere_renumbered limits draft line)
      intro defined
      exact Traced.renumbered_map (append_renumbered defined line 1 true) fun _ => rfl
  | strz => exact Traced.renumbered_map (string_renumbered limits draft line) fun _ => rfl
  | blkw => exact Traced.renumbered_map (block_renumbered limits draft line) fun _ => rfl
  | ent =>
      exact Traced.renumbered_map
        (declaration_renumbered Program.addEntry_renumbered limits draft line) fun _ => rfl
  | ext =>
      exact Traced.renumbered_map
        (declaration_renumbered Program.addExternal_renumbered limits draft line) fun _ => rfl

/-- Taking in a renumbered record is taking in the record, renumbered. -/
theorem accept_renumbered (limits : Limits) (draft : Draft) (line : SourceLine) :
    (draft.renumbered number).accept limits (line.renumbered number) =
      (draft.accept limits line).renumbered number (Progress.renumbered number) := by
  have operation : (line.renumbered number).operation = line.operation := rfl
  rw [accept, accept, operation]
  cases line.operation with
  | unknown name => rfl
  | instruction mnemonic =>
      apply Traced.renumbered_bind (Traced.lift_renumbered (checkOrder_renumbered draft line))
      intro _
      apply Traced.renumbered_bind (Traced.lift_renumbered (checkCount_renumbered line _))
      intro _
      apply Traced.renumbered_bind
        (Traced.lift_renumbered (checkSlots_renumbered line 0 mnemonic.slots line.operands))
      intro _
      exact Traced.renumbered_map (instruction_renumbered limits draft line) fun _ => rfl
  | directive directive =>
      apply Traced.renumbered_bind (Traced.lift_renumbered (checkOrder_renumbered draft line))
      intro _
      apply Traced.renumbered_bind (Traced.lift_renumbered (checkCount_renumbered line _))
      intro _
      apply Traced.renumbered_bind
        (Traced.lift_renumbered (checkKinds_renumbered line directive 0 line.operands))
      intro _
      exact obey_renumbered limits draft line directive

end Draft

end

end Lc3Assembler
