import Lc3Assembler.Proofs.Outcome
import Mathlib.Data.List.Forall2

/-!
# What reading a source does

`Draft.Takes` says once what an accepted line does to a draft: its label and
its literals enter the tables, and one record is appended.  `Draft.Reachable`
closes the empty draft under it, and `Program.read_eq_ok` reduces a successful
run to a reachable draft that is closed.  Everything later about programs that
were read follows from these two.
-/

namespace Lc3Assembler

/-- The operands that an operation takes, by number and kind. -/
def Operation.Accepts : Operation → List Operand → Prop
  | .instruction mnemonic, operands =>
      List.Forall₂ (fun slot operand => slot.allows operand.kind = true)
        mnemonic.slots operands
  | .directive order, operands =>
      order.arity.1 ≤ operands.length ∧ operands.length ≤ order.arity.2 ∧
        ∀ operand ∈ operands, order.allows operand.kind = true
  | .unknown _, _ => False

/-- The record of a line. -/
def SourceLine.record (line : SourceLine) (location : Option Int) (size : Int) : Record :=
  { line := line.number
    operation := line.operation
    label := line.label
    operands := line.operands
    location
    size }

namespace Draft

/-- A draft with the record of a line behind its others. -/
def extended (draft : Draft) (line : SourceLine) (size : Int) (located : Bool) : Draft :=
  { draft with
    program :=
      { draft.program with
        records := draft.program.records ++
          [line.record (if located then some draft.location else none) size] }
    location := draft.location + size }

theorem checkOperand_eq_ok {line : SourceLine} {index : Nat} {operand : Operand}
    {allowed : Bool} {expected : List String}
    (checked : checkOperand line index operand allowed expected = .ok ()) :
    allowed = true := by
  cases allowed with
  | true => rfl
  | false => simp [checkOperand] at checked

theorem checkSlots_eq_ok {line : SourceLine} {index : Nat} {slots : List Slot}
    {operands : List Operand} (same : operands.length = slots.length)
    (checked : checkSlots line index slots operands = .ok ()) :
    List.Forall₂ (fun slot operand => slot.allows operand.kind = true)
      slots operands := by
  induction slots generalizing index operands with
  | nil =>
      have empty : operands = [] := List.eq_nil_of_length_eq_zero same
      subst operands
      exact .nil
  | cons slot slots induction =>
      cases operands with
      | nil => simp at same
      | cons operand operands =>
          obtain ⟨_, head, tail⟩ := bind_eq_ok_iff.mp checked
          have tailSame : operands.length = slots.length := by
            simpa using same
          exact .cons (checkOperand_eq_ok head) (induction tailSame tail)

theorem checkKinds_eq_ok {line : SourceLine} {order : Directive} {index : Nat}
    {operands : List Operand}
    (checked : checkKinds line order index operands = .ok ()) :
    ∀ operand ∈ operands, order.allows operand.kind = true := by
  induction operands generalizing index with
  | nil => simp
  | cons operand operands induction =>
      obtain ⟨_, head, tail⟩ := bind_eq_ok_iff.mp checked
      intro candidate member
      rcases List.mem_cons.mp member with first | later
      · rw [first]
        exact checkOperand_eq_ok head
      · exact induction tail candidate later

theorem checkCount_eq_ok {line : SourceLine} {arity : Nat × Nat}
    (checked : checkCount line arity = .ok ()) :
    arity.1 ≤ line.operands.length ∧ line.operands.length ≤ arity.2 := by
  by_cases counted : arity.1 ≤ line.operands.length ∧ line.operands.length ≤ arity.2
  · exact counted
  · simp [checkCount, counted] at checked

theorem checkOrder_eq_ok {draft : Draft} {line : SourceLine}
    (checked : draft.checkOrder line = .ok ()) :
    draft.started = true ↔ line.operation ≠ .directive .orig := by
  by_cases opens : line.operation = .directive .orig
  · cases started : draft.started with
    | true => simp [checkOrder, opens, started] at checked
    | false => simp [opens]
  · cases started : draft.started with
    | true => simp [opens]
    | false => simp [checkOrder, opens, started] at checked

theorem append_eq_ok {draft next : Draft} {line : SourceLine} {size : Int} {located : Bool}
    (appended : (draft.append line size located).outcome = .ok next) :
    (size ≠ 0 → draft.location + size ≤ maxAddress) ∧
      next = draft.extended line size located := by
  unfold append at appended
  split at appended
  · simp at appended
  · rename_i fits
    have bounded : size ≠ 0 → draft.location + size ≤ maxAddress := by
      intro nonzero
      exact Int.not_lt.mp (fun beyond => fits ⟨nonzero, beyond⟩)
    refine ⟨bounded, ?_⟩
    simp only [Traced.outcome_bind, Traced.outcome_lift, bind_eq_ok_iff,
      Program.addRecord, Program.ifOpen] at appended
    obtain ⟨program, added, result⟩ := appended
    split at added
    · simp at added
    · cases added
      cases result
      rfl

theorem firstOperand_eq_ok {line : SourceLine} {operand : Operand}
    (first : firstOperand line = .ok operand) :
    ∃ others, line.operands = operand :: others := by
  unfold firstOperand at first
  split at first
  · rename_i head tail operands
    cases first
    exact ⟨tail, operands⟩
  · simp at first

theorem firstOperand_single {line : SourceLine} {operand : Operand}
    (single : line.operands.length ≤ 1) (first : firstOperand line = .ok operand) :
    line.operands = [operand] := by
  obtain ⟨others, operands⟩ := firstOperand_eq_ok first
  rw [operands, List.length_cons] at single
  have alone : others = [] :=
    List.eq_nil_of_length_eq_zero (Nat.le_zero.mp (Nat.le_of_succ_le_succ single))
  rw [operands, alone]

/-- What a line does to the tables before its record is appended, with the
size of the record and whether it has a location. -/
inductive Prepares (limits : Limits) (draft : Draft) (line : SourceLine) :
    Draft → Int → Bool → Prop where
  | equate {operand : Operand} {value : Int} {relocatable : Bool} {defined : Draft}
      (operation : line.operation = .directive .equ)
      (first : firstOperand line = .ok operand)
      (evaluated : draft.equateValue line operand = .ok (value, relocatable))
      (labelled : (draft.define limits line value relocatable).outcome = .ok defined) :
      Prepares limits draft line defined 0 false
  | fill {defined : Draft}
      (operation : line.operation = .directive .fill)
      (labelled : (draft.defineHere limits line).outcome = .ok defined) :
      Prepares limits draft line defined 1 true
  | string {operand : Operand} {defined : Draft}
      (operation : line.operation = .directive .strz)
      (first : firstOperand line = .ok operand)
      (labelled : (draft.defineHere limits line).outcome = .ok defined) :
      Prepares limits draft line defined (operand.text.length - 1) true
  | block {operand : Operand} {words : Int} {defined : Draft}
      (operation : line.operation = .directive .blkw)
      (first : firstOperand line = .ok operand)
      (counted : draft.blockWords line operand = .ok words)
      (labelled : (draft.defineHere limits line).outcome = .ok defined) :
      Prepares limits draft line defined words true
  | entry {defined : Draft} {program : Program}
      (operation : line.operation = .directive .ent)
      (labelled : (draft.defineHere limits line).outcome = .ok defined)
      (declared : declareAll Program.addEntry line.number defined.program
        line.operands = .ok program) :
      Prepares limits draft line { defined with program } 0 false
  | external {defined : Draft} {program : Program}
      (operation : line.operation = .directive .ext)
      (labelled : (draft.defineHere limits line).outcome = .ok defined)
      (declared : declareAll Program.addExternal line.number defined.program
        line.operands = .ok program) :
      Prepares limits draft line { defined with program } 0 false
  | last (operation : line.operation = .directive .endSegment)
      (unlabelled : line.label = none) :
      Prepares limits draft line draft 0 false
  | instruction {mnemonic : Mnemonic} {defined : Draft} {program : Program}
      (operation : line.operation = .instruction mnemonic)
      (labelled : (draft.defineHere limits line).outcome = .ok defined)
      (pooled : (poolAll limits line.number defined.program
        line.operands).outcome = .ok program) :
      Prepares limits draft line { defined with program } 1 true

/-- The draft that opens a segment, before its record is appended. -/
def opened (draft : Draft) (segment : String) (load : Option Int) : Draft :=
  { program :=
      { draft.program with
        segment
        relocatable := load.isNone
        firstAddress := load.getD 0 }
    location := load.getD 0
    started := true }

/-- What an accepted line does to a draft. -/
inductive Takes (limits : Limits) (draft : Draft) (line : SourceLine) : Draft → Prop where
  | first {segment : String} {load : Option Int}
      (unstarted : draft.started = false)
      (operation : line.operation = .directive .orig)
      (accepted : line.operation.Accepts line.operands)
      (named : line.label = some segment)
      (loaded : loadAddress line = .ok load) :
      Takes limits draft line ((draft.opened segment load).extended line 0 false)
  | later {prepared : Draft} {size : Int} {located : Bool}
      (started : draft.started = true)
      (accepted : line.operation.Accepts line.operands)
      (prepares : Prepares limits draft line prepared size located)
      (fits : size ≠ 0 → prepared.location + size ≤ maxAddress) :
      Takes limits draft line (prepared.extended line size located)

/-- The drafts that lines lead to. -/
inductive Reachable (limits : Limits) : Draft → Prop where
  | start : Reachable limits {}
  | step {draft next : Draft} {line : SourceLine} {number : Int} {text : String} :
      Reachable limits draft → SourceLine.split limits.spareCalls number text = .ok line →
      Takes limits draft line next → Reachable limits next

theorem Prepares.takes {limits : Limits} {draft prepared next : Draft} {line : SourceLine}
    {size : Int} {located : Bool}
    (prepares : Prepares limits draft line prepared size located)
    (started : draft.started = true)
    (accepted : line.operation.Accepts line.operands)
    (appended : (prepared.append line size located).outcome = .ok next) :
    Takes limits draft line next := by
  obtain ⟨fits, result⟩ := append_eq_ok appended
  rw [result]
  exact .later started accepted prepares fits

theorem obey_eq_more {limits : Limits} {draft next : Draft} {line : SourceLine}
    {order : Directive} (operation : line.operation = .directive order)
    (ordered : draft.checkOrder line = .ok ())
    (accepted : line.operation.Accepts line.operands)
    (obeyed : (draft.obey limits line order).outcome = .ok (.more next)) :
    Takes limits draft line next := by
  have started := checkOrder_eq_ok ordered
  cases order with
  | orig =>
      simp only [obey, Traced.outcome_map, map_eq_ok_iff, Progress.more.injEq,
        exists_eq_right, origin] at obeyed
      split at obeyed
      · simp at obeyed
      · rename_i segment named
        simp only [Traced.outcome_bind, Traced.outcome_lift, Traced.outcome_note,
          ok_bind, bind_eq_ok_iff] at obeyed
        obtain ⟨load, loaded, appended⟩ := obeyed
        obtain ⟨_, result⟩ := append_eq_ok appended
        subst next
        have unstarted : draft.started = false := by
          cases opening : draft.started with
          | false => rfl
          | true => exact absurd operation (started.mp opening)
        exact .first unstarted operation accepted named loaded
  | endSegment =>
      simp [obey, map_eq_ok_iff] at obeyed
  | equ =>
      simp only [obey, Traced.outcome_map, map_eq_ok_iff, Progress.more.injEq,
        exists_eq_right, equate] at obeyed
      split at obeyed
      · simp at obeyed
      · simp only [Traced.outcome_bind, Traced.outcome_lift, bind_eq_ok_iff] at obeyed
        obtain ⟨operand, first, ⟨value, relocatable⟩, evaluated, defined, labelled,
          appended⟩ := obeyed
        have prepares := Prepares.equate operation first evaluated labelled
        exact prepares.takes (started.mpr (by simp [operation])) accepted appended
  | fill =>
      simp only [obey, Traced.outcome_bind, Traced.outcome_map, bind_eq_ok_iff,
        map_eq_ok_iff, Progress.more.injEq, exists_eq_right] at obeyed
      obtain ⟨defined, labelled, appended⟩ := obeyed
      have prepares := Prepares.fill operation labelled
      exact prepares.takes (started.mpr (by simp [operation])) accepted appended
  | strz =>
      simp only [obey, string, Traced.outcome_bind, Traced.outcome_lift,
        Traced.outcome_map, bind_eq_ok_iff, map_eq_ok_iff, Progress.more.injEq,
        exists_eq_right] at obeyed
      obtain ⟨defined, labelled, operand, first, appended⟩ := obeyed
      have prepares := Prepares.string operation first labelled
      exact prepares.takes (started.mpr (by simp [operation])) accepted appended
  | blkw =>
      simp only [obey, block, Traced.outcome_bind, Traced.outcome_lift,
        Traced.outcome_map, bind_eq_ok_iff, map_eq_ok_iff, Progress.more.injEq,
        exists_eq_right] at obeyed
      obtain ⟨operand, first, words, counted, defined, labelled, appended⟩ := obeyed
      have prepares := Prepares.block operation first counted labelled
      exact prepares.takes (started.mpr (by simp [operation])) accepted appended
  | ent =>
      simp only [obey, declaration, Traced.outcome_bind, Traced.outcome_lift,
        Traced.outcome_map, bind_eq_ok_iff, map_eq_ok_iff, Progress.more.injEq,
        exists_eq_right] at obeyed
      obtain ⟨defined, labelled, program, declared, appended⟩ := obeyed
      have prepares := Prepares.entry operation labelled declared
      exact prepares.takes (started.mpr (by simp [operation])) accepted appended
  | ext =>
      simp only [obey, declaration, Traced.outcome_bind, Traced.outcome_lift,
        Traced.outcome_map, bind_eq_ok_iff, map_eq_ok_iff, Progress.more.injEq,
        exists_eq_right] at obeyed
      obtain ⟨defined, labelled, program, declared, appended⟩ := obeyed
      have prepares := Prepares.external operation labelled declared
      exact prepares.takes (started.mpr (by simp [operation])) accepted appended

theorem obey_eq_done {limits : Limits} {draft : Draft} {line : SourceLine}
    {order : Directive} {program : Program}
    (operation : line.operation = .directive order)
    (ordered : draft.checkOrder line = .ok ())
    (accepted : line.operation.Accepts line.operands)
    (obeyed : (draft.obey limits line order).outcome = .ok (.done program)) :
    ∃ exec last, Takes limits draft line last ∧ (last.close exec).outcome = .ok program := by
  have started := checkOrder_eq_ok ordered
  cases order with
  | endSegment =>
      simp only [obey, Traced.outcome_map, map_eq_ok_iff, Progress.done.injEq,
        exists_eq_right, finish] at obeyed
      split at obeyed
      · simp at obeyed
      · rename_i unlabelled
        simp only [Traced.outcome_bind, Traced.outcome_lift, bind_eq_ok_iff] at obeyed
        obtain ⟨exec, _, last, appended, closed⟩ := obeyed
        have prepares : Prepares limits draft line draft 0 false :=
          .last operation unlabelled
        have taken := prepares.takes (started.mpr (by simp [operation])) accepted appended
        exact ⟨exec, last, taken, closed⟩
  | orig => simp [obey, map_eq_ok_iff] at obeyed
  | equ => simp [obey, map_eq_ok_iff] at obeyed
  | fill => simp [obey, bind_eq_ok_iff, map_eq_ok_iff] at obeyed
  | strz => simp [obey, map_eq_ok_iff] at obeyed
  | blkw => simp [obey, map_eq_ok_iff] at obeyed
  | ent => simp [obey, map_eq_ok_iff] at obeyed
  | ext => simp [obey, map_eq_ok_iff] at obeyed

/-- An accepted line leads on, or to a draft that is closed at once. -/
theorem accept_eq_ok {limits : Limits} {draft : Draft} {line : SourceLine}
    {progress : Progress}
    (outcome : (draft.accept limits line).outcome = .ok progress) :
    match progress with
    | .more next => Takes limits draft line next
    | .done program =>
        ∃ exec last, Takes limits draft line last ∧
          (last.close exec).outcome = .ok program := by
  unfold accept at outcome
  split at outcome
  · simp at outcome
  · rename_i mnemonic operation
    simp only [Traced.outcome_bind, Traced.outcome_lift, Traced.outcome_map,
      bind_eq_ok_iff, map_eq_ok_iff, instruction] at outcome
    obtain ⟨_, ordered, _, counted, _, checked, next, result, rfl⟩ := outcome
    obtain ⟨defined, labelled, program, pooled, appended⟩ := result
    obtain ⟨fewest, most⟩ := checkCount_eq_ok counted
    have accepted : line.operation.Accepts line.operands := by
      rw [operation]
      exact checkSlots_eq_ok (Nat.le_antisymm most fewest) checked
    have started := (checkOrder_eq_ok ordered).mpr (by simp [operation])
    have prepares := Prepares.instruction operation labelled pooled
    exact prepares.takes started accepted appended
  · rename_i order operation
    simp only [Traced.outcome_bind, Traced.outcome_lift, bind_eq_ok_iff] at outcome
    obtain ⟨_, ordered, _, counted, _, checked, obeyed⟩ := outcome
    obtain ⟨fewest, most⟩ := checkCount_eq_ok counted
    have accepted : line.operation.Accepts line.operands := by
      rw [operation]
      exact ⟨fewest, most, checkKinds_eq_ok checked⟩
    cases progress with
    | more next => exact obey_eq_more operation ordered accepted obeyed
    | done program => exact obey_eq_done operation ordered accepted obeyed

-- The record ceiling and the last record both close a reachable draft, the
-- latter with the last record in it.
theorem readLines_eq_ok {limits : Limits} {ending : Ending} {count : Nat} {draft : Draft}
    {lines : List String} {program : Program} (reachable : Reachable limits draft)
    (outcome : (readLines limits ending count draft lines).outcome = .ok program) :
    ∃ exec last, Reachable limits last ∧ (last.close exec).outcome = .ok program := by
  induction lines generalizing count draft with
  | nil => simp [readLines] at outcome
  | cons raw rest induction =>
      simp only [readLines] at outcome
      split at outcome
      · exact induction reachable outcome
      · split at outcome
        · exact ⟨none, draft, reachable, by simpa using outcome⟩
        · split at outcome
          · simp at outcome
          · rename_i parsed split
            simp only [Traced.outcome_bind, bind_eq_ok_iff] at outcome
            obtain ⟨progress, accepted, continued⟩ := outcome
            have taken := accept_eq_ok accepted
            cases progress with
            | done result =>
                obtain ⟨exec, last, step, closed⟩ := taken
                cases continued
                exact ⟨exec, last, .step reachable split step, closed⟩
            | more next => exact induction (.step reachable split taken) continued

end Draft

/-- A program that was read is a reachable draft that was closed. -/
theorem Program.read_eq_ok {limits : Limits} {source : Source} {program : Program}
    (outcome : (Program.read limits source).outcome = .ok program) :
    ∃ exec last, Draft.Reachable limits last ∧ (last.close exec).outcome = .ok program :=
  Draft.readLines_eq_ok .start outcome

end Lc3Assembler
