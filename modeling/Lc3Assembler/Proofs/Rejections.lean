import Lc3Assembler.Proofs.DeepOperands
import Lc3Assembler.Proofs.EncodingFaults
import Lc3Assembler.Proofs.SessionRuns

/-!
# Only sources are rejected

Reading and encoding fail with an error about the source or not at all, and besides only
a file that is not UTF-8 and an operand that is nested too deep stop a reading: no rule of
an interface is broken on the way.  The checks of a record come first, and what they
establish keeps every later look-up safe, as the invariant of drafts and the contract of
read programs state it.
-/

namespace Lc3Assembler

namespace OnlyRejects

theorem guarded {condition : Prop} [Decidable condition] {line : Int} {cause : Cause}
    {rest : Except Failure α} (restRejects : ¬condition → OnlyRejects rest) :
    OnlyRejects (if condition then .error (.reject line cause) else rest) := by
  split
  · exact reject line cause
  · rename_i passes
    exact restRejects passes

end OnlyRejects

theorem Program.ifOpen_of_unfrozen {program : Program} {change : Except Failure α}
    (unfrozen : program.frozen = false) : program.ifOpen change = change := by
  simp [ifOpen, unfrozen]

theorem Program.freeze_onlyRejects (program : Program) : OnlyRejects program.freeze := by
  unfold freeze
  split
  · exact .ok _
  · split
    · exact .rejected _
    · exact .rejected _
    · split
      · exact .rejected _
      · split
        · exact .rejected _
        · exact .ok _

namespace Draft

theorem checkOperand_onlyRejects (line : SourceLine) (index : Nat) (operand : Operand)
    (allowed : Bool) (expected : List String) :
    OnlyRejects (checkOperand line index operand allowed expected) := by
  apply OnlyRejects.guarded
  intro _
  apply OnlyRejects.guarded
  intro _
  exact .ok ()

theorem checkSlots_onlyRejects (line : SourceLine) (index : Nat) (slots : List Slot)
    (operands : List Operand) : OnlyRejects (checkSlots line index slots operands) := by
  induction slots generalizing index operands with
  | nil => exact .ok ()
  | cons slot slots induction =>
      cases operands with
      | nil => exact .ok ()
      | cons operand operands =>
          apply (checkOperand_onlyRejects _ _ _ _ _).bind
          intro _ _
          exact induction _ _

theorem checkKinds_onlyRejects (line : SourceLine) (order : Directive) (index : Nat)
    (operands : List Operand) : OnlyRejects (checkKinds line order index operands) := by
  induction operands generalizing index with
  | nil => exact .ok ()
  | cons operand operands induction =>
      apply (checkOperand_onlyRejects _ _ _ _ _).bind
      intro _ _
      exact induction _

theorem checkCount_onlyRejects (line : SourceLine) (arity : Nat × Nat) :
    OnlyRejects (checkCount line arity) := by
  simp only [checkCount]
  split
  · exact .ok ()
  · exact .reject _ _

theorem checkOrder_onlyRejects (draft : Draft) (line : SourceLine) :
    OnlyRejects (draft.checkOrder line) := by
  apply OnlyRejects.guarded
  intro _
  apply OnlyRejects.guarded
  intro _
  exact .ok ()

theorem define_onlyRejects {limits : Limits} {draft : Draft} {line : SourceLine} {value : Int}
    {relocatable : Bool} (unfrozen : draft.program.frozen = false) :
    OnlyRejects (draft.define limits line value relocatable).outcome := by
  unfold define
  split
  · exact .ok draft
  · split
    · exact .ok draft
    · simp only [Traced.outcome_bind, Traced.outcome_lift, Traced.outcome_note, ok_bind,
        Traced.outcome_pure, Program.defineSymbol, Program.ifOpen_of_unfrozen unfrozen]
      apply OnlyRejects.bind
      · split
        · exact .rejected _
        · exact .ok _
      · intro _ _
        exact .ok _

theorem pool_onlyRejects {limits : Limits} {number : Int} {program : Program}
    {operand : Operand} (unfrozen : program.frozen = false) :
    OnlyRejects (pool limits number program operand).outcome := by
  unfold pool
  split
  · split
    · exact .reject _ _
    · split
      · exact .ok _
      · split
        · exact .ok _
        · simp only [Traced.outcome_bind, Traced.outcome_lift, Traced.outcome_note, ok_bind,
            Traced.outcome_pure, Program.addLiteral, Program.ifOpen_of_unfrozen unfrozen]
          apply OnlyRejects.bind
          · split
            · exact .ok _
            · exact .ok _
          · intro _ _
            exact .ok _
  · exact .ok _

theorem poolAll_onlyRejects {limits : Limits} {number : Int} {program : Program}
    {operands : List Operand} {uses : List Nat} (unfrozen : program.frozen = false)
    (pools : Pools limits uses program.literals) :
    OnlyRejects (poolAll limits number program operands).outcome := by
  induction operands generalizing program uses with
  | nil => exact .ok _
  | cons operand operands induction =>
      simp only [poolAll, Traced.outcome_bind]
      apply (pool_onlyRejects unfrozen).bind
      intro pooled outcome
      obtain ⟨frame, later⟩ := pool_eq_ok pools outcome
      exact induction (by rw [frame]; exact unfrozen) later

theorem append_onlyRejects {draft : Draft} {line : SourceLine} {size : Int} {located : Bool}
    (unfrozen : draft.program.frozen = false) :
    OnlyRejects (draft.append line size located).outcome := by
  unfold append
  split
  · exact .reject _ _
  · simp only [Traced.outcome_bind, Traced.outcome_lift, Traced.outcome_pure,
      Program.addRecord, Program.ifOpen_of_unfrozen unfrozen, ok_bind]
    exact .ok _

theorem declareAll_onlyRejects
    {add : Program → String → Option Int → Except Failure Program}
    (declares : ∀ {program name line declared},
      add program name line = .ok declared → Declares program declared)
    (adds : ∀ {program name line}, program.frozen = false →
      OnlyRejects (add program name line))
    {number : Int} {program : Program} {operands : List Operand}
    (unfrozen : program.frozen = false) :
    OnlyRejects (declareAll add number program operands) := by
  induction operands generalizing program with
  | nil => exact .ok _
  | cons operand operands induction =>
      apply (adds unfrozen).bind
      intro declared outcome
      exact induction (by rw [declares outcome]; exact unfrozen)

theorem addEntry_onlyRejects {program : Program} {name : String} {line : Option Int}
    (unfrozen : program.frozen = false) : OnlyRejects (program.addEntry name line) := by
  rw [Program.addEntry, Program.ifOpen_of_unfrozen unfrozen]
  exact .ok _

theorem addExternal_onlyRejects {program : Program} {name : String} {line : Option Int}
    (unfrozen : program.frozen = false) : OnlyRejects (program.addExternal name line) := by
  rw [Program.addExternal, Program.ifOpen_of_unfrozen unfrozen]
  exact .ok _

theorem declaration_onlyRejects {limits : Limits} {draft : Draft} {line : SourceLine}
    {add : Program → String → Option Int → Except Failure Program}
    (declares : ∀ {program name line declared},
      add program name line = .ok declared → Declares program declared)
    (adds : ∀ {program name line}, program.frozen = false →
      OnlyRejects (add program name line))
    (unfrozen : draft.program.frozen = false) :
    OnlyRejects (declaration add limits draft line).outcome := by
  simp only [declaration, Traced.outcome_bind, Traced.outcome_lift]
  apply (define_onlyRejects unfrozen).bind
  intro defined outcome
  have stillOpen := (define_frame outcome).1.frozen.trans unfrozen
  apply (declareAll_onlyRejects declares adds stillOpen).bind
  intro program declared
  apply append_onlyRejects
  rw [declareAll_eq_ok declares declared]
  exact stillOpen

theorem firstOperand_onlyRejects {line : SourceLine} (present : 1 ≤ line.operands.length) :
    OnlyRejects (firstOperand line) := by
  unfold firstOperand
  split
  · exact .ok _
  · rename_i absent
    simp [absent] at present

theorem loadAddress_onlyRejects {line : SourceLine}
    (immediates : ∀ operand ∈ line.operands, operand.kind = .immediate) :
    OnlyRejects (loadAddress line) := by
  unfold loadAddress
  split
  · exact .ok _
  · rename_i operand others operands
    obtain ⟨base, value, form⟩ :=
      Form.kind_eq_immediate_iff.mp (immediates operand (by simp [operands]))
    simp only [form, Form.value?]
    exact .guarded fun _ => .ok _

theorem equateValue_onlyRejects (draft : Draft) (line : SourceLine) (operand : Operand) :
    OnlyRejects (draft.equateValue line operand) := by
  unfold equateValue
  split
  · split
    · exact .ok _
    · exact .reject _ _
  · split
    · exact .ok _
    · split
      · exact .reject _ _
      · exact .reject _ _

theorem blockWords_onlyRejects (draft : Draft) (line : SourceLine) (operand : Operand) :
    OnlyRejects (draft.blockWords line operand) := by
  unfold blockWords
  split
  · exact .guarded fun _ => .ok _
  · split
    · split
      · exact .reject _ _
      · exact .guarded fun _ => .ok _
    · exact .reject _ _

theorem execAddress_onlyRejects (draft : Draft) (line : SourceLine) :
    OnlyRejects (draft.execAddress line) := by
  unfold execAddress
  split
  · exact .ok _
  · split
    · exact .ok _
    · split
      · exact .ok _
      · exact .reject _ _

theorem close_onlyRejects {draft : Draft} {exec : Option Int}
    (unfrozen : draft.program.frozen = false)
    (unplaced : ∀ literal ∈ draft.program.literals, literal.address = Literal.unplaced) :
    OnlyRejects (draft.close exec).outcome := by
  have noneplaced : draft.program.literalsPlaced = false := by
    rw [Program.literalsPlaced, List.any_eq_false]
    intro literal member
    simp [Literal.isPlaced, unplaced literal member]
  simp only [close, Traced.outcome_bind, Traced.outcome_lift, Traced.outcome_note, ok_bind,
    Traced.outcome_pure, Program.placeLiterals, Program.ifOpen_of_unfrozen unfrozen, noneplaced,
    Bool.false_eq_true, if_false]
  apply OnlyRejects.bind
  · split
    · exact .rejected _
    · exact .ok _
  · rintro ⟨placed, after⟩ _
    apply (Program.freeze_onlyRejects _).bind
    intro _ _
    exact .ok _

theorem finish_onlyRejects {draft : Draft} {line : SourceLine}
    (unfrozen : draft.program.frozen = false)
    (unplaced : ∀ literal ∈ draft.program.literals, literal.address = Literal.unplaced) :
    OnlyRejects (draft.finish line).outcome := by
  unfold finish
  split
  · exact .reject _ _
  · simp only [Traced.outcome_bind, Traced.outcome_lift]
    apply (execAddress_onlyRejects draft line).bind
    intro exec _
    apply (append_onlyRejects unfrozen).bind
    intro last appended
    rw [(append_eq_ok appended).2]
    exact close_onlyRejects unfrozen unplaced

theorem instruction_onlyRejects {limits : Limits} {draft : Draft} {line : SourceLine}
    (invariant : draft.Invariant limits) :
    OnlyRejects (draft.instruction limits line).outcome := by
  simp only [instruction, Traced.outcome_bind]
  apply (define_onlyRejects invariant.unfrozen).bind
  intro defined outcome
  obtain ⟨frame, same⟩ := define_frame outcome
  have stillOpen := frame.frozen.trans invariant.unfrozen
  have pools := invariant.pools
  rw [← same] at pools
  apply (poolAll_onlyRejects stillOpen pools).bind
  intro program pooled
  apply append_onlyRejects
  rw [(poolAll_eq_ok pools pooled).1]
  exact stillOpen

theorem obey_onlyRejects {limits : Limits} {draft : Draft} {line : SourceLine}
    {order : Directive} (invariant : draft.Invariant limits)
    (accepted : (Operation.directive order).Accepts line.operands) :
    OnlyRejects (draft.obey limits line order).outcome := by
  have unfrozen := invariant.unfrozen
  obtain ⟨fewest, _, kinds⟩ := accepted
  cases order with
  | orig =>
      simp only [obey, Traced.outcome_map]
      apply OnlyRejects.map
      unfold origin
      split
      · exact .reject _ _
      · simp only [Traced.outcome_bind, Traced.outcome_lift, Traced.outcome_note, ok_bind]
        have immediates : ∀ operand ∈ line.operands, operand.kind = .immediate := by
          intro operand member
          simpa [Directive.allows, Directive.kinds] using kinds operand member
        apply (loadAddress_onlyRejects immediates).bind
        intro load _
        exact append_onlyRejects unfrozen
  | endSegment =>
      simp only [obey, Traced.outcome_map]
      exact (finish_onlyRejects unfrozen invariant.pools.unplaced).map _
  | equ =>
      simp only [obey, Traced.outcome_map]
      apply OnlyRejects.map
      unfold equate
      split
      · exact .reject _ _
      · simp only [Traced.outcome_bind, Traced.outcome_lift]
        apply (firstOperand_onlyRejects fewest).bind
        intro operand _
        apply (equateValue_onlyRejects draft line operand).bind
        intro value _
        apply (define_onlyRejects unfrozen).bind
        intro defined outcome
        exact append_onlyRejects ((define_frame outcome).1.frozen.trans unfrozen)
  | fill =>
      simp only [obey, Traced.outcome_bind, Traced.outcome_map]
      apply (define_onlyRejects unfrozen).bind
      intro defined outcome
      exact (append_onlyRejects ((define_frame outcome).1.frozen.trans unfrozen)).map _
  | strz =>
      simp only [obey, Traced.outcome_map, string, Traced.outcome_bind, Traced.outcome_lift]
      apply OnlyRejects.map
      apply (define_onlyRejects unfrozen).bind
      intro defined outcome
      apply (firstOperand_onlyRejects fewest).bind
      intro operand _
      exact append_onlyRejects ((define_frame outcome).1.frozen.trans unfrozen)
  | blkw =>
      simp only [obey, Traced.outcome_map, block, Traced.outcome_bind, Traced.outcome_lift]
      apply OnlyRejects.map
      apply (firstOperand_onlyRejects fewest).bind
      intro operand _
      apply (blockWords_onlyRejects draft line operand).bind
      intro words _
      apply (define_onlyRejects unfrozen).bind
      intro defined outcome
      exact append_onlyRejects ((define_frame outcome).1.frozen.trans unfrozen)
  | ent =>
      simp only [obey, Traced.outcome_map]
      exact (declaration_onlyRejects declares_addEntry addEntry_onlyRejects unfrozen).map _
  | ext =>
      simp only [obey, Traced.outcome_map]
      exact (declaration_onlyRejects declares_addExternal addExternal_onlyRejects unfrozen).map _

theorem accept_onlyRejects {limits : Limits} {draft : Draft} {line : SourceLine}
    (invariant : draft.Invariant limits) : OnlyRejects (draft.accept limits line).outcome := by
  unfold accept
  split
  · exact .reject _ _
  · simp only [Traced.outcome_bind, Traced.outcome_lift, Traced.outcome_map]
    apply (checkOrder_onlyRejects draft line).bind
    intro _ _
    apply (checkCount_onlyRejects line _).bind
    intro _ _
    apply (checkSlots_onlyRejects line 0 _ _).bind
    intro _ _
    exact (instruction_onlyRejects invariant).map _
  · simp only [Traced.outcome_bind, Traced.outcome_lift]
    apply (checkOrder_onlyRejects draft line).bind
    intro _ _
    apply (checkCount_onlyRejects line _).bind
    intro _ counted
    apply (checkKinds_onlyRejects line _ 0 _).bind
    intro _ checked
    obtain ⟨fewest, most⟩ := checkCount_eq_ok counted
    exact obey_onlyRejects invariant ⟨fewest, most, checkKinds_eq_ok checked⟩

theorem exhausted_rejects {draft : Draft} {count : Nat} {ending : Ending}
    (decoded : ∀ fault, ending ≠ .undecodable fault) :
    OnlyRejects (.error (draft.exhausted count ending) : Except Failure α) := by
  unfold exhausted
  split
  · split
    · exact .reject _ _
    · exact .rejected _
  · exact .rejected _
  · rename_i fault
    exact absurd rfl (decoded fault)

/-- Reading stops with an error of the source, behind its last line, or at an operand that is
nested too deep. -/
theorem Stops.failure {limits : Limits} {ending : Ending} {count : Nat} {draft : Draft}
    {rest : List String} {run : Traced Program} {failure : Failure}
    (stops : Stops limits ending count draft rest run) (invariant : draft.Invariant limits)
    (fails : run.outcome = .error failure) :
    (∃ error, failure = .rejected error) ∨
      (rest = [] ∧ ∃ fault, ending = .undecodable fault ∧ failure = .undecodable fault) ∨
        failure = .tooDeep ∧ ∃ text behind, rest = text :: behind ∧
          (draft.program.records.length : Int) < limits.maxRecords ∧
            SourceLine.HasDeepOperand limits.spareCalls (Text.chomp text) := by
  cases stops with
  | exhausted =>
      cases ending with
      | undecodable fault =>
          cases fails
          exact .inr (.inl ⟨rfl, fault, rfl, rfl⟩)
      | complete => exact .inl (exhausted_rejects (by simp) failure fails)
      | unreadable refusal => exact .inl (exhausted_rejects (by simp) failure fails)
  | ceiling _ _ =>
      simp only [Traced.outcome_bind, Traced.outcome_note, ok_bind] at fails
      exact .inl (close_onlyRejects invariant.unfrozen invariant.pools.unplaced failure fails)
  | malformed _ space split =>
      cases fails
      rcases SourceLine.split_failure split with rejected | ⟨given, deep⟩
      · exact .inl rejected
      · exact .inr (.inr ⟨given, _, _, rfl, space, deep⟩)
  | refused _ _ _ accepted =>
      cases fails
      exact .inl (accept_onlyRejects invariant failure (congrArg Traced.outcome accepted))
  | ended _ _ _ _ => cases fails

end Draft

namespace Program

theorem read_failure {limits : Limits} {source : Source} {failure : Failure}
    (fails : (Program.read limits source).outcome = .error failure) :
    (∃ error, failure = .rejected error) ∨ (∃ fault, failure = .undecodable fault) ∨
      failure = .tooDeep := by
  obtain ⟨lines, rest, events, draft, run, _, reads, stops, same⟩ := read_stops limits source
  rw [same] at fails
  rcases stops.failure reads.reachable.invariant fails with
    rejected | ⟨_, fault, _, undecoded⟩ | ⟨given, _⟩
  · exact .inl rejected
  · exact .inr (.inl ⟨fault, undecoded⟩)
  · exact .inr (.inr given)

/-- A fault behind the lines shows when all of them were taken in. -/
theorem read_undecodable_iff {limits : Limits} {source : Source} {fault : Text.Utf8.Fault} :
    (Program.read limits source).outcome = .error (.undecodable fault) ↔
      source.ending = .undecodable fault ∧
        ∃ events draft, Draft.Reads limits source.lines events draft := by
  constructor
  · intro fails
    obtain ⟨lines, rest, events, draft, run, cut, reads, stops, same⟩ := read_stops limits source
    rw [same] at fails
    rcases stops.failure reads.reachable.invariant fails with
      ⟨_, impossible⟩ | ⟨rfl, other, ending, equal⟩ | ⟨impossible, _⟩
    · cases impossible
    · cases equal
      rw [List.append_nil] at cut
      exact ⟨ending, events, draft, cut ▸ reads⟩
    · cases impossible
  · rintro ⟨ending, events, draft, reads⟩
    obtain ⟨lines, _⟩ := source
    subst ending
    have behind : (Program.read limits
        { lines := lines ++ [], ending := .undecodable fault }).outcome =
          .error (.undecodable fault) := by
      rw [Draft.Reads.read reads]
      rfl
    rwa [List.append_nil] at behind

/-- The host gives up on a source exactly if reading gets to an operand that is nested too
deep. -/
theorem read_tooDeep_iff {limits : Limits} {source : Source} :
    (Program.read limits source).outcome = .error .tooDeep ↔ source.GetsTooDeep limits := by
  constructor
  · intro fails
    obtain ⟨lines, rest, events, draft, run, cut, reads, stops, same⟩ := read_stops limits source
    rw [same] at fails
    rcases stops.failure reads.reachable.invariant fails with
      ⟨_, impossible⟩ | ⟨_, _, _, impossible⟩ | ⟨_, text, behind, rfl, space, deep⟩
    · cases impossible
    · cases impossible
    · exact ⟨lines, text, behind, events, draft, cut, reads, space, deep⟩
  · rintro ⟨before, text, behind, events, draft, cut, reads, space, deep⟩
    obtain ⟨lines, ending⟩ := source
    subst cut
    obtain ⟨label, labelled⟩ := deep.label
    have stops : Draft.Stops limits ending before.length draft (text :: behind)
        (Traced.fail .tooDeep) :=
      .malformed (SourceLine.not_comment_of_readLabel labelled) space
        (SourceLine.split_eq_tooDeep_iff.mpr deep)
    rw [reads.read, stops.readLines]
    rfl

/-- Encoding a program that was read rejects it or succeeds. -/
theorem encode_onlyRejects {limits : Limits} {program : Program}
    (assembled : program.Assembled limits) : OnlyRejects program.encode := by
  have judged := encode_judged assembled
  generalize program.encode = outcome at judged
  generalize program.records = records at judged
  cases judged with
  | made _ => exact .ok _
  | rejected _ _ _ => exact .reject _ _

end Program

/-- An assembly fails because of its source, or where its reading found a fault or got too
deep. -/
theorem assemble_failure {limits : Limits} {source : Source} {failure : Failure}
    (fails : (assemble limits source).outcome = .error failure) :
    (∃ error, failure = .rejected error) ∨
      (∃ fault, failure = .undecodable fault ∧
        (Program.read limits source).outcome = .error (.undecodable fault)) ∨
        failure = .tooDeep ∧ source.GetsTooDeep limits := by
  cases read : (Program.read limits source).outcome with
  | error other =>
      simp only [assemble, Traced.outcome_bind, read, error_bind] at fails
      cases fails
      rcases Program.read_failure read with rejected | ⟨fault, rfl⟩ | rfl
      · exact .inl rejected
      · exact .inr (.inl ⟨fault, rfl, rfl⟩)
      · exact .inr (.inr ⟨rfl, Program.read_tooDeep_iff.mp read⟩)
  | ok program =>
      simp only [assemble, Traced.outcome_bind, Traced.outcome_note, Traced.outcome_lift, read,
        ok_bind, Traced.outcome_pure] at fails
      have rejects := Program.encode_onlyRejects (Program.assembled_of_read read)
      exact .inl (rejects.bind (fun output _ => .ok (program, output)) failure fails)

namespace Session

theorem outcome_of_getsTooDeep {session : Session} {source : Source}
    (deep : source.GetsTooDeep session.limits) :
    (session.assembleSource source).2.outcome = .error .tooDeep := by
  rw [outcome_assembleSource, outcome_assemble, Program.read_tooDeep_iff.mpr deep]
  rfl

/-- A session that assembles lines, whether they end or cannot be read on, gets an output or
an error of the source, unless it gets to an operand that is nested too deep. -/
theorem assembleSource_result_or_rejection_iff (session : Session) {source : Source}
    (decoded : ∀ fault, source.ending ≠ .undecodable fault) :
    (((∃ output, (session.assembleSource source).2.outcome = .ok output) ∨
        ∃ error, (session.assembleSource source).2.outcome = .error (.rejected error)) ↔
      ¬source.GetsTooDeep session.limits) ∧
    (source.GetsTooDeep session.limits →
      (session.assembleSource source).2.outcome = .error .tooDeep) := by
  refine ⟨?_, outcome_of_getsTooDeep⟩
  constructor
  · rintro (⟨output, succeeds⟩ | ⟨error, fails⟩) deep
    · rw [outcome_of_getsTooDeep deep] at succeeds
      cases succeeds
    · rw [outcome_of_getsTooDeep deep] at fails
      cases fails
  · intro shallow
    rw [outcome_assembleSource]
    cases outcome : (assemble session.limits source).outcome with
    | ok result => exact .inl ⟨result.2, rfl⟩
    | error failure =>
        rcases assemble_failure outcome with ⟨error, rfl⟩ | ⟨fault, _, read⟩ | ⟨_, deep⟩
        · exact .inr ⟨error, rfl⟩
        · exact absurd (Program.read_undecodable_iff.mp read).1 (decoded fault)
        · exact absurd deep shallow

/-- A supply of lines that breaks off before the segment ends. -/
def brokenSupply : Source :=
  .failingAfter 2 (.missing "part2.asm")
    ["DEMO     .ORIG   xFFF0", "         .BLKW   x2", "         .END"]

theorem brokenSupply_rejected :
    (∀ fault, brokenSupply.ending ≠ .undecodable fault) ∧
      (∃ error, (assembleSource { limits := {} } brokenSupply).2.outcome =
        .error (.rejected error)) ∧
      ¬brokenSupply.GetsTooDeep {} := by
  have decoded (fault : Text.Utf8.Fault) : brokenSupply.ending ≠ .undecodable fault :=
    Ending.noConfusion
  have rejected : (assembleSource { limits := {} } brokenSupply).2.outcome =
      .error (.rejected
        { cause := .unreadable (Refusal.missing "part2.asm").message, line := some 2 }) := by
    decide +kernel
  exact ⟨decoded, ⟨_, rejected⟩,
    (assembleSource_result_or_rejection_iff { limits := {} } decoded).1.mp (.inr ⟨_, rejected⟩)⟩

/-- A segment with an operand that is nested deeper than any usual host lets calls nest. -/
def deepSource : Source :=
  .ofLines ["S        .ORIG", SourceLine.deepLine 5000, "         .END"]

theorem deepSource_getsTooDeep : deepSource.GetsTooDeep {} := by
  have split : SourceLine.split defaultSpareCalls 1 (Text.chomp "S        .ORIG") =
      .ok { number := 1, label := some "S", operation := .directive .orig, operands := [] } := by
    decide +kernel
  have reads : Draft.Reads {} ["S        .ORIG"] _ _ :=
    .record .start (by decide) (by decide) split rfl
  exact ⟨_, _, _, _, _, rfl, reads, by decide,
    SourceLine.hasDeepOperand_deepLine (by decide)⟩

/-- The session has neither an output for it nor an error of it, but what the host says. -/
theorem deepSource_tooDeep :
    Session.start {} = .ok { limits := {} } ∧ deepSource.ending = .complete ∧
      (assembleSource { limits := {} } deepSource).2.outcome = .error .tooDeep ∧
      ¬((∃ output, (assembleSource { limits := {} } deepSource).2.outcome = .ok output) ∨
        ∃ error, (assembleSource { limits := {} } deepSource).2.outcome =
          .error (.rejected error)) := by
  have deep : (assembleSource { limits := {} } deepSource).2.outcome = .error .tooDeep :=
    outcome_of_getsTooDeep deepSource_getsTooDeep
  refine ⟨rfl, rfl, deep, ?_⟩
  rw [deep]
  rintro (⟨_, impossible⟩ | ⟨_, impossible⟩)
  · cases impossible
  · cases impossible

end Session

end Lc3Assembler
