import Lc3Assembler.Proofs.Following
import Lc3Assembler.Proofs.Meaning
import Lc3Assembler.Proofs.QuietRuns

/-!
# What the limits of the tables cannot change

Two runs over the same lines under different table limits are compared step by
step.  Their tables may hold different names and literals, but a name that both
hold stands for the same symbol, and whatever one run drops and uses makes it
fail.  So two runs that both succeed give the same output.
-/

namespace Lc3Assembler

/-- Programs that differ in what their tables dropped. -/
structure Program.Alike (program other : Program) : Prop where
  segment : other.segment = program.segment
  relocatable : other.relocatable = program.relocatable
  firstAddress : other.firstAddress = program.firstAddress
  execAddress : other.execAddress = program.execAddress
  records : other.records = program.records
  entries : other.entries = program.entries
  externals : other.externals = program.externals
  frozen : other.frozen = program.frozen
  /-- A name that both programs define is the same symbol in both. -/
  symbols : ∀ {name symbol twin}, program.symbol? name = some symbol →
    other.symbol? name = some twin → twin = symbol

structure Draft.Alike (draft other : Draft) : Prop where
  program : draft.program.Alike other.program
  location : other.location = draft.location
  started : other.started = draft.started

inductive Progress.Alike : Progress → Progress → Prop where
  | more {draft other : Draft} (drafts : draft.Alike other) :
      Progress.Alike (.more draft) (.more other)
  | done {program other : Program} (programs : program.Alike other) :
      Progress.Alike (.done program) (.done other)

namespace Draft

section Labels

variable {limits : Limits} {draft defined : Draft} {line : SourceLine} {value : Int}
  {relocatable : Bool} {noted : List Diagnostic} {name : String}

/-- A label changes the symbols only. -/
theorem Labels.frame (labels : Labels limits draft line value relocatable noted defined) :
    defined = { draft with
      program := { draft.program with symbols := defined.program.symbols } } := by
  cases labels <;> rfl

/-- A label is new, also when it is dropped. -/
theorem Labels.new (labels : Labels limits draft line value relocatable noted defined)
    (label : line.label = some name) : draft.program.symbol? name = none := by
  cases labels with
  | unlabelled none =>
      rw [label] at none
      cases none
  | dropped other new _ =>
      rw [label] at other
      cases other
      exact new
  | entered other new _ =>
      rw [label] at other
      cases other
      exact new

theorem Labels.symbol? {symbol : Symbol}
    (labels : Labels limits draft line value relocatable noted defined)
    (found : defined.program.symbol? name = some symbol) :
    draft.program.symbol? name = some symbol ∨
      line.label = some name ∧
        symbol = Symbol.define name value relocatable (some line.number) := by
  cases labels with
  | unlabelled _ => exact .inl found
  | dropped _ _ _ => exact .inl found
  | entered label _ _ =>
      rw [Program.symbol?, List.find?_append, Option.or_eq_some_iff] at found
      rcases found with old | ⟨_, new⟩
      · exact .inl old
      · have same := List.find?_some new
        have member := List.mem_singleton.mp (List.mem_of_find?_eq_some new)
        simp only [member, Symbol.define, beq_iff_eq] at same
        subst same
        exact .inr ⟨label, member⟩

end Labels

theorem close_execAddress {draft : Draft} {exec : Option Int} {program : Program}
    (outcome : (draft.close exec).outcome = .ok program) :
    program.execAddress = exec.getD
      (if draft.program.relocatable then draft.location else draft.program.firstAddress) := by
  simp only [close, Traced.outcome_bind, Traced.outcome_lift, Traced.outcome_note, ok_bind,
    Traced.outcome_pure, bind_eq_ok_iff, Except.ok.injEq] at outcome
  obtain ⟨⟨placed, after⟩, placement, frozen, freezing, rfl⟩ := outcome
  obtain ⟨unfrozen, _, rfl, rfl⟩ := Program.placeLiterals_eq_ok placement
  obtain ⟨_, _, _, _, rfl⟩ := Program.freeze_eq_ok (by exact unfrozen) freezing
  rfl

end Draft

namespace Program.Alike

variable {program other : Program}

theorem ifOpen {related : α → β → Prop} {first : Except Failure α} {second : Except Failure β}
    (programs : program.Alike other) (rest : Follows False related first second) :
    Follows False related (program.ifOpen first) (other.ifOpen second) := by
  unfold Program.ifOpen
  rw [programs.frozen]
  split
  · exact .error _ _
  · exact rest

theorem addEntry (name : String) (line : Option Int) (programs : program.Alike other) :
    Follows False Program.Alike (program.addEntry name line) (other.addEntry name line) :=
  programs.ifOpen (.ok { programs with entries := by rw [programs.entries] })

theorem addExternal (name : String) (line : Option Int) (programs : program.Alike other) :
    Follows False Program.Alike (program.addExternal name line) (other.addExternal name line) :=
  programs.ifOpen (.ok { programs with externals := by rw [programs.externals] })

theorem declareAll {add : Program → String → Option Int → Except Failure Program}
    (adds : ∀ {program other} name line, Program.Alike program other →
      Follows False Program.Alike (add program name line) (add other name line))
    {number : Int} {operands : List Operand} (programs : program.Alike other) :
    Follows False Program.Alike (Draft.declareAll add number program operands)
      (Draft.declareAll add number other operands) := by
  induction operands generalizing program other with
  | nil => exact .ok programs
  | cons operand operands induction =>
      apply (adds operand.text (some number) programs).bind
      intro first second _ _ declared
      exact induction declared

/-- Pooling does not touch what the programs have in common. -/
theorem pooled {first second : Program} (programs : program.Alike other)
    (frame : first = { program with literals := first.literals })
    (otherFrame : second = { other with literals := second.literals }) :
    first.Alike second := by
  rw [frame, otherFrame]
  exact { programs with }

end Program.Alike

namespace Draft.Alike

variable {limits wider : Limits} {draft other : Draft} {line : SourceLine}

theorem define {value : Int} {relocatable : Bool} (drafts : draft.Alike other) :
    Follows False Draft.Alike (draft.define limits line value relocatable).outcome
      (other.define wider line value relocatable).outcome := by
  apply Follows.both
  intro defined twin outcome otherOutcome
  have labels := define_labels outcome
  have otherLabels := define_labels otherOutcome
  -- A label that is new in both tables cannot meet an older symbol in either.
  have symbols : ∀ {name symbol same}, defined.program.symbol? name = some symbol →
      twin.program.symbol? name = some same → same = symbol := by
    intro name symbol same found alsoFound
    rcases labels.symbol? found with old | ⟨label, rfl⟩
    · rcases otherLabels.symbol? alsoFound with alsoOld | ⟨label, rfl⟩
      · exact drafts.program.symbols old alsoOld
      · rw [labels.new label] at old
        cases old
    · rcases otherLabels.symbol? alsoFound with old | ⟨_, rfl⟩
      · rw [otherLabels.new label] at old
        cases old
      · rfl
  rw [labels.frame, otherLabels.frame]
  exact ⟨{ drafts.program with symbols }, drafts.location, drafts.started⟩

theorem defineHere (drafts : draft.Alike other) :
    Follows False Draft.Alike (draft.defineHere limits line).outcome
      (other.defineHere wider line).outcome := by
  simp only [Draft.defineHere, drafts.location, drafts.program.relocatable]
  exact drafts.define

theorem append {size : Int} {located : Bool} (drafts : draft.Alike other) :
    Follows False Draft.Alike (draft.append line size located).outcome
      (other.append line size located).outcome := by
  apply Follows.both
  intro next twin outcome otherOutcome
  rw [(append_eq_ok outcome).2, (append_eq_ok otherOutcome).2]
  refine ⟨{ drafts.program with records := ?_ }, ?_, drafts.started⟩
  · simp only [extended, drafts.program.records, drafts.location]
  · simp only [extended, drafts.location]

theorem equateValue {operand : Operand} (drafts : draft.Alike other) :
    Follows False Eq (draft.equateValue line operand) (other.equateValue line operand) := by
  unfold Draft.equateValue
  split
  · exact .same _
  · cases found : draft.program.symbol? operand.text with
    | none =>
        simp only
        split
        · exact .error _ _
        · exact .error _ _
    | some symbol =>
        cases alsoFound : other.program.symbol? operand.text with
        | none =>
            simp only
            split
            · exact .failing _ _
            · exact .failing _ _
        | some twin =>
            rw [drafts.program.symbols found alsoFound]
            exact .same _

theorem blockWords {operand : Operand} (drafts : draft.Alike other) :
    Follows False Eq (draft.blockWords line operand) (other.blockWords line operand) := by
  unfold Draft.blockWords
  split
  · exact .same _
  · cases found : draft.program.symbol? operand.text with
    | none => exact .error _ _
    | some symbol =>
        cases alsoFound : other.program.symbol? operand.text with
        | none => exact .failing _ _
        | some twin =>
            rw [drafts.program.symbols found alsoFound]
            exact .same _

theorem execAddress (drafts : draft.Alike other) :
    Follows False Eq (draft.execAddress line) (other.execAddress line) := by
  unfold Draft.execAddress
  split
  · exact .same _
  · split
    · exact .same _
    · rename_i operand _ _ _ _
      cases found : draft.program.symbol? operand.text with
      | none => exact .error _ _
      | some symbol =>
          cases alsoFound : other.program.symbol? operand.text with
          | none => exact .failing _ _
          | some twin =>
              rw [drafts.program.symbols found alsoFound]
              exact .same _

theorem close {exec : Option Int} (drafts : draft.Alike other) :
    Follows False Program.Alike (draft.close exec).outcome (other.close exec).outcome := by
  apply Follows.both
  intro program twin outcome otherOutcome
  have start : twin.execAddress = program.execAddress := by
    rw [close_execAddress outcome, close_execAddress otherOutcome, drafts.location,
      drafts.program.relocatable, drafts.program.firstAddress]
  obtain ⟨_, _, _, result⟩ := close_eq_ok outcome
  obtain ⟨_, _, _, otherResult⟩ := close_eq_ok otherOutcome
  rw [result, otherResult]
  exact { drafts.program with execAddress := start, frozen := rfl }

theorem more {first second : Traced Draft}
    (follows : Follows False Draft.Alike first.outcome second.outcome) :
    Follows False Progress.Alike (Progress.more <$> first).outcome
      (Progress.more <$> second).outcome := by
  rw [Traced.outcome_map, Traced.outcome_map]
  apply follows.map
  intro next twin _ _ nexts
  exact .more nexts

theorem origin (drafts : draft.Alike other) :
    Follows False Draft.Alike (draft.origin line).outcome (other.origin line).outcome := by
  unfold Draft.origin
  split
  · exact .error _ _
  · simp only [Traced.outcome_bind, Traced.outcome_lift, Traced.outcome_note, ok_bind]
    apply Follows.shared
    intro load _
    apply append
    exact ⟨{ drafts.program with segment := rfl, relocatable := rfl, firstAddress := rfl }, rfl,
      rfl⟩

theorem finish (drafts : draft.Alike other) :
    Follows False Program.Alike (draft.finish line).outcome (other.finish line).outcome := by
  unfold Draft.finish
  split
  · exact .error _ _
  · simp only [Traced.outcome_bind, Traced.outcome_lift]
    apply drafts.execAddress.bind
    intro exec _ _ _ same
    subst same
    apply drafts.append.bind
    intro last twin _ _ lasts
    exact lasts.close

theorem declaration {add : Program → String → Option Int → Except Failure Program}
    (adds : ∀ {program other} name line, Program.Alike program other →
      Follows False Program.Alike (add program name line) (add other name line))
    (drafts : draft.Alike other) :
    Follows False Draft.Alike (Draft.declaration add limits draft line).outcome
      (Draft.declaration add wider other line).outcome := by
  simp only [Draft.declaration, Traced.outcome_bind, Traced.outcome_lift]
  apply drafts.defineHere.bind
  intro defined twin _ _ defines
  apply (defines.program.declareAll adds).bind
  intro program otherProgram _ _ programs
  exact append ⟨programs, defines.location, defines.started⟩

theorem obey {order : Directive} (drafts : draft.Alike other) :
    Follows False Progress.Alike (draft.obey limits line order).outcome
      (other.obey wider line order).outcome := by
  cases order with
  | orig => exact more drafts.origin
  | endSegment =>
      simp only [Draft.obey, Traced.outcome_map]
      apply drafts.finish.map
      intro program twin _ _ programs
      exact .done programs
  | equ =>
      apply more
      unfold Draft.equate
      split
      · exact .error _ _
      · simp only [Traced.outcome_bind, Traced.outcome_lift]
        apply Follows.shared
        intro operand _
        apply drafts.equateValue.bind
        intro value _ _ _ same
        subst same
        apply drafts.define.bind
        intro defined twin _ _ defines
        exact defines.append
  | fill =>
      simp only [Draft.obey, Traced.outcome_bind]
      apply drafts.defineHere.bind
      intro defined twin _ _ defines
      exact more defines.append
  | strz =>
      apply more
      simp only [Draft.string, Traced.outcome_bind, Traced.outcome_lift]
      apply drafts.defineHere.bind
      intro defined twin _ _ defines
      apply Follows.shared
      intro operand _
      exact defines.append
  | blkw =>
      apply more
      simp only [Draft.block, Traced.outcome_bind, Traced.outcome_lift]
      apply Follows.shared
      intro operand _
      apply drafts.blockWords.bind
      intro words _ _ _ same
      subst same
      apply drafts.defineHere.bind
      intro defined twin _ _ defines
      exact defines.append
  | ent => exact more (drafts.declaration Program.Alike.addEntry)
  | ext => exact more (drafts.declaration Program.Alike.addExternal)

theorem instruction (drafts : draft.Alike other) (invariant : draft.Invariant limits)
    (otherInvariant : other.Invariant wider) :
    Follows False Draft.Alike (draft.instruction limits line).outcome
      (other.instruction wider line).outcome := by
  simp only [Draft.instruction, Traced.outcome_bind]
  apply drafts.defineHere.bind
  intro defined twin labelled otherLabelled defines
  have pools := invariant.pools
  have otherPools := otherInvariant.pools
  rw [← (define_frame labelled).2] at pools
  rw [← (define_frame otherLabelled).2] at otherPools
  have pooled : Follows False Program.Alike
      (Draft.poolAll limits line.number defined.program line.operands).outcome
      (Draft.poolAll wider line.number twin.program line.operands).outcome := by
    apply Follows.both
    intro first second outcome otherOutcome
    exact defines.program.pooled (poolAll_eq_ok pools outcome).1
      (poolAll_eq_ok otherPools otherOutcome).1
  apply pooled.bind
  intro first second _ _ programs
  exact append ⟨programs, defines.location, defines.started⟩

theorem accept (drafts : draft.Alike other) (invariant : draft.Invariant limits)
    (otherInvariant : other.Invariant wider) :
    Follows False Progress.Alike (draft.accept limits line).outcome
      (other.accept wider line).outcome := by
  have order : other.checkOrder line = draft.checkOrder line := by
    simp only [Draft.checkOrder, drafts.started]
  unfold Draft.accept
  split
  · exact .error _ _
  · simp only [Traced.outcome_bind, Traced.outcome_lift, order]
    apply Follows.shared
    intro _ _
    apply Follows.shared
    intro _ _
    apply Follows.shared
    intro _ _
    exact more (drafts.instruction invariant otherInvariant)
  · simp only [Traced.outcome_bind, Traced.outcome_lift, order]
    apply Follows.shared
    intro _ _
    apply Follows.shared
    intro _ _
    apply Follows.shared
    intro _ _
    exact drafts.obey

/-- Two runs that both succeed read the same program, but for their tables. -/
theorem readLines {ending : Ending} {count : Nat} {lines : List String}
    (records : wider.maxRecords = limits.maxRecords) (drafts : draft.Alike other)
    (reachable : Reachable limits draft) (alsoReachable : Reachable wider other) :
    Follows False Program.Alike (Draft.readLines limits ending count draft lines).outcome
      (Draft.readLines wider ending count other lines).outcome := by
  induction lines generalizing count draft other with
  | nil => exact .error _ _
  | cons text rest induction =>
      simp only [Draft.readLines, records, drafts.program.records]
      split
      · exact induction drafts reachable alsoReachable
      · split
        · simp only [Traced.outcome_bind, Traced.outcome_note, ok_bind]
          exact drafts.close
        · cases split : SourceLine.split limits.spareCalls (count + 1 : Nat) (Text.chomp text) with
          | error failure => exact .error _ _
          | ok line =>
              simp only [SourceLine.split_of_split split wider.spareCalls, Traced.outcome_bind]
              apply (drafts.accept reachable.invariant alsoReachable.invariant).bind
              intro progress twin accepted otherAccepted progresses
              have taken := accept_eq_ok accepted
              have otherTaken := accept_eq_ok otherAccepted
              cases progresses with
              | done programs => exact .ok programs
              | more nexts =>
                  exact induction nexts (.step reachable split taken)
                    (.step alsoReachable (SourceLine.split_of_split split _) otherTaken)

end Draft.Alike

/-- Words and addresses make up a pool. -/
theorem Literal.list_ext {literals others : List Literal}
    (words : others.map Literal.word = literals.map Literal.word)
    (addresses : others.map Literal.address = literals.map Literal.address) :
    others = literals := by
  induction literals generalizing others with
  | nil => exact List.map_eq_nil_iff.mp words
  | cons literal literals induction =>
      cases others with
      | nil => cases words
      | cons first others =>
          rw [List.map_cons, List.map_cons] at words addresses
          obtain ⟨word, laterWords⟩ := List.cons.inj words
          obtain ⟨address, laterAddresses⟩ := List.cons.inj addresses
          rw [induction laterWords laterAddresses]
          cases first
          cases literal
          cases word
          cases address
          rfl

namespace Program

theorem isExternal_iff {program : Program} {name : String} :
    program.isExternal name = true ↔
      ∃ declaration ∈ program.externals, declaration.name = name := by
  simp [isExternal]

namespace Alike

variable {limits wider : Limits} {program other : Program} {output result : Output}

theorem isExternal (programs : program.Alike other) (name : String) :
    other.isExternal name = program.isExternal name := by
  rw [Program.isExternal, Program.isExternal, programs.externals]

/-- A name with a meaning in both programs is defined in both or in none. -/
theorem symbol? (programs : program.Alike other) (assembled : program.Assembled limits)
    (otherAssembled : other.Assembled wider) {name : String}
    (known : program.symbol? name = none → program.isExternal name = true)
    (otherKnown : other.symbol? name = none → other.isExternal name = true) :
    other.symbol? name = program.symbol? name := by
  cases found : program.symbol? name with
  | some symbol =>
      cases alsoFound : other.symbol? name with
      | some twin => rw [programs.symbols found alsoFound]
      | none =>
          obtain ⟨declaration, member, rfl⟩ := isExternal_iff.mp (otherKnown alsoFound)
          rw [programs.externals] at member
          rw [assembled.externals declaration member] at found
          cases found
  | none =>
      cases alsoFound : other.symbol? name with
      | none => rfl
      | some twin =>
          obtain ⟨declaration, member, rfl⟩ := isExternal_iff.mp (known found)
          rw [← programs.externals] at member
          rw [otherAssembled.externals declaration member] at alsoFound
          cases alsoFound

theorem external_of_resolve {line : Int} {operand : Operand} {meaning : Resolved}
    (resolution : program.resolve line operand = .ok meaning)
    (form : operand.form = .symbol) (undefined : program.symbol? operand.text = none) :
    program.isExternal operand.text = true := by
  simp only [resolve, form, undefined] at resolution
  split at resolution
  · assumption
  · cases resolution

/-- Two programs that encode a record agree on what its operands mean. -/
theorem agreesOn {record : Record} (programs : program.Alike other)
    (assembled : program.Assembled limits) (otherAssembled : other.Assembled wider)
    (literals : other.literals = program.literals)
    (resolves : ∀ operand ∈ record.operands, ∃ meaning,
      program.resolve record.line operand = .ok meaning)
    (otherResolves : ∀ operand ∈ record.operands, ∃ meaning,
      other.resolve record.line operand = .ok meaning) :
    program.AgreesOn other record := by
  have named : ∀ operand ∈ record.operands, operand.form = .symbol →
      other.symbol? operand.text = program.symbol? operand.text := by
    intro operand member form
    obtain ⟨_, resolution⟩ := resolves operand member
    obtain ⟨_, otherResolution⟩ := otherResolves operand member
    exact programs.symbol? assembled otherAssembled (external_of_resolve resolution form)
      (external_of_resolve otherResolution form)
  constructor
  · intro operand member
    cases form : operand.form with
    | symbol => simp only [resolve, form, named operand member form, programs.isExternal]
    | literal base value => simp only [resolve, form, literal?, literals]
    | register _ | immediate _ _ | string | malformed => simp only [resolve, form]
  · intro operand member slot
    cases form : operand.form with
    | symbol =>
        simp only [relocation, form, named operand member form, programs.isExternal,
          programs.relocatable]
    | register _ | immediate _ _ | literal _ _ | string | malformed =>
        simp only [relocation, form, programs.relocatable]

theorem literals (programs : program.Alike other) (assembled : program.Assembled limits)
    (otherAssembled : other.Assembled wider) (encoded : program.encode = .ok output)
    (otherEncoded : other.encode = .ok result) : other.literals = program.literals := by
  obtain ⟨_, each, _⟩ := encode_eq_ok assembled encoded
  obtain ⟨_, otherEach, _⟩ := encode_eq_ok otherAssembled otherEncoded
  have words : other.literals.map Literal.word = program.literals.map Literal.word := by
    rw [pool_complete assembled each, pool_complete otherAssembled otherEach, literalUses,
      programs.records, literalUses]
  have count := congrArg List.length words
  rw [List.length_map, List.length_map] at count
  apply Literal.list_ext words
  rw [assembled.addresses, otherAssembled.addresses, count, poolStart, poolStart,
    programs.records, programs.firstAddress]

/-- Two programs that are both encoded are encoded alike. -/
theorem encode (programs : program.Alike other) (assembled : program.Assembled limits)
    (otherAssembled : other.Assembled wider) (encoded : program.encode = .ok output)
    (otherEncoded : other.encode = .ok result) : other.encode = program.encode := by
  have literals := programs.literals assembled otherAssembled encoded otherEncoded
  have length : other.length = program.length := by
    rw [assembled.length, otherAssembled.length, literals, poolStart, poolStart,
      programs.records, programs.firstAddress]
  have entries : other.encodeEntries program.entries = program.encodeEntries program.entries := by
    apply encodeEntries_congr
    intro declaration member
    obtain ⟨symbol, found⟩ := Option.isSome_iff_exists.mp (assembled.entries declaration member)
    obtain ⟨twin, alsoFound⟩ := Option.isSome_iff_exists.mp
      (otherAssembled.entries declaration (programs.entries ▸ member))
    rw [found, alsoFound, programs.symbols found alsoFound]
  have records : other.encodeRecords program.records = program.encodeRecords program.records := by
    obtain ⟨_, each, _⟩ := encode_eq_ok assembled encoded
    obtain ⟨_, otherEach, _⟩ := encode_eq_ok otherAssembled otherEncoded
    apply encodeRecords_congr
    intro record member resolved
    have wellFormed := assembled.wellFormed record member
    obtain ⟨_, _, outcome⟩ := exists_right_of_forall₂ each member
    obtain ⟨_, _, otherOutcome⟩ :=
      exists_right_of_forall₂ otherEach (programs.records ▸ member)
    exact programs.agreesOn assembled otherAssembled literals
      (resolve_of_encodeRecord wellFormed resolved outcome)
      (resolve_of_encodeRecord wellFormed resolved otherOutcome)
  simp only [Program.encode, programs.frozen, programs.entries, programs.records,
    programs.externals, programs.segment, programs.firstAddress, programs.execAddress, entries,
    records, literals, length]

end Alike

end Program

/-- Two assemblies of a source that succeed under different table limits give the same
output, and one that fills no table stays as it is with more room on the same host. -/
theorem assemble_tableLimits {limits other : Limits} {source : Source}
    (records : other.maxRecords = limits.maxRecords) :
    (∀ program output twin result,
      (assemble limits source).outcome = .ok (program, output) →
      (assemble other source).outcome = .ok (twin, result) → result = output) ∧
    (other.spareCalls = limits.spareCalls →
      limits.maxSymbols ≤ other.maxSymbols → limits.maxLiterals ≤ other.maxLiterals →
      (∀ warning ∈ (assemble limits source).warnings,
        warning.code ≠ .symbolTableFull ∧ warning.code ≠ .literalPoolFull) →
      assemble other source = assemble limits source) := by
  constructor
  · intro program output twin result outcome otherOutcome
    obtain ⟨read, encoded⟩ := assemble_eq_ok outcome
    obtain ⟨otherRead, otherEncoded⟩ := assemble_eq_ok otherOutcome
    have start : Draft.Alike {} {} :=
      ⟨⟨rfl, rfl, rfl, rfl, rfl, rfl, rfl, rfl, by simp [Program.symbol?]⟩, rfl, rfl⟩
    obtain ⟨whole, wholeRead, programs⟩ :=
      start.readLines records .start .start program read (.inr ⟨twin, otherRead⟩)
    cases otherRead.symm.trans wholeRead
    have same := programs.encode (Program.assembled_of_read read)
      (Program.assembled_of_read otherRead) encoded otherEncoded
    rw [encoded, otherEncoded] at same
    exact Except.ok.inj same
  · intro host symbols literals quiet
    exact assemble_repeated ⟨records, host, symbols, literals⟩ source quiet

/-- A segment with a name that nothing uses. -/
def spareName : Source :=
  .ofLines
    ["SPARE    .ORIG   x3000",
      "USED     .FILL   x7",
      "IDLE     LD      R1,USED",
      "         .END"]

theorem spareName_tableLimits :
    ∃ program output twin result,
      (assemble { maxSymbols := 1 } spareName).outcome = .ok (program, output) ∧
      (assemble {} spareName).outcome = .ok (twin, result) ∧
      program.symbols.map Symbol.name = ["USED"] ∧
      twin.symbols.map Symbol.name = ["USED", "IDLE"] ∧ result = output ∧
      assemble {} spareName = assemble { maxSymbols := 2 } spareName := by
  have trims : (assemble { maxSymbols := 1 } spareName).outcome.toOption.map
      (·.1.symbols.map Symbol.name) = some ["USED"] := by decide +kernel
  have keeps : (assemble {} spareName).outcome.toOption.map (·.1.symbols.map Symbol.name) =
      some ["USED", "IDLE"] := by decide +kernel
  obtain ⟨⟨program, output⟩, outcome⟩ := exists_eq_ok
    (by decide +kernel : (assemble { maxSymbols := 1 } spareName).outcome.isOk = true)
  obtain ⟨⟨twin, result⟩, otherOutcome⟩ := exists_eq_ok
    (by decide +kernel : (assemble {} spareName).outcome.isOk = true)
  rw [outcome] at trims
  rw [otherOutcome] at keeps
  refine ⟨program, output, twin, result, outcome, otherOutcome, Option.some.inj trims,
    Option.some.inj keeps, ?_, ?_⟩
  · have records : ({} : Limits).maxRecords = ({ maxSymbols := 1 } : Limits).maxRecords := rfl
    exact (assemble_tableLimits records).1 program output twin result outcome otherOutcome
  · have silent : (assemble { maxSymbols := 2 } spareName).warnings = [] := by decide +kernel
    have records : ({} : Limits).maxRecords = ({ maxSymbols := 2 } : Limits).maxRecords := rfl
    apply (assemble_tableLimits records).2 rfl (by decide) (by decide)
    rw [silent]
    simp

end Lc3Assembler
