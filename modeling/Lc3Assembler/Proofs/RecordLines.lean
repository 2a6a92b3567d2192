import Lc3Assembler.Proofs.RecordCeiling
import Lc3Assembler.Proofs.SymbolTable

/-!
# Records and the lines they come from

The records of a program that was read are its lines without the comments, up to
the line that ends the segment or to the line in front of which the ceiling ends
it.  `Program.RecordContract` puts this together with what the two passes rely
on: where the segment opens and ends, which names are defined, and where each
record lies.
-/

namespace Lc3Assembler

/-- The lines that are no comments, with their numbers. -/
def Source.recordLines (lines : List String) : List (String × Nat) :=
  (lines.zipIdx 1).filter fun numbered => !SourceLine.isComment (Text.chomp numbered.1)

/-- A record carries what its line says. -/
structure Record.Carries (numbered : String × Nat) (record : Record) : Prop where
  number : record.line = numbered.2
  fields : ∃ line,
    (∀ spareCalls, SourceLine.split spareCalls numbered.2 (Text.chomp numbered.1) = .ok line) ∧
      record.label = line.label ∧ record.operation = line.operation ∧
        record.operands = line.operands

namespace Program

/-- The words of a block: a number, or the value of a symbol that does not move. -/
def Counts (program : Program) (operand : Operand) (words : Int) : Prop :=
  (∃ base, operand.form = .immediate base words) ∨
    (operand.form = .symbol ∧ ∃ symbol, program.symbol? operand.text = some symbol ∧
      symbol.relocatable = false ∧ symbol.signedValue = words)

/-- How a run that has taken in some lines ends with a program. -/
inductive Finishes (limits : Limits) (program : Program) (warnings : List Diagnostic)
    (taken rest : List String) : Prop where
  | ended {before : List String} {text : String} {earlier : List Record} {last : Record}
      (line : taken = before ++ [text])
      (record : SourceLine.isComment (Text.chomp text) = false)
      (records : program.records = earlier ++ [last])
      (ends : last.operation = .directive .endSegment)
      (only : ∀ record ∈ earlier, record.operation ≠ .directive .endSegment)
      (silent : ∀ warning ∈ warnings, warning.code ≠ .recordLimit)
  | ceiling {text : String} {behind : List String}
      (line : rest = text :: behind)
      (record : SourceLine.isComment (Text.chomp text) = false)
      (full : program.records.length = limits.maxRecords)
      (unended : ∀ record ∈ program.records, record.operation ≠ .directive .endSegment)
      (warned : .recordLimit limits.maxRecords (taken.length + 1 : Nat) ∈ warnings)

/-- Where a record lies: one with storage behind the records before it and below
the highest address, any other nowhere. -/
def Places (program : Program) (index : Nat) (record : Record) : Prop :=
  if record.operation.storage then
    record.location = some (program.addressAt index) ∧ 0 < record.size ∧
      program.addressAt index + record.size ≤ 0xFFFF
  else record.location = none ∧ record.size = 0

/-- What the records of a program are. -/
structure RecordContract (limits : Limits) (source : Source) (program : Program)
    (warnings : List Diagnostic) : Prop where
  /-- No line is lost, repeated or out of place. -/
  lines : ∃ taken rest, source.lines = taken ++ rest ∧
    List.Forall₂ Record.Carries (Source.recordLines taken) program.records ∧
    program.Finishes limits warnings taken rest
  opened : ∃ first others, program.records = first :: others ∧
    first.operation = .directive .orig ∧
      ∀ record ∈ others, record.operation ≠ .directive .orig
  frozen : program.frozen = true
  addresses : 0 ≤ program.firstAddress ∧ program.firstAddress ≤ program.execAddress ∧
    program.execAddress ≤ 0xFFFF
  entries : ∀ entry ∈ program.entries, entry.name ∈ program.symbols.map Symbol.name
  externals : ∀ external ∈ program.externals,
    external.name ∉ program.symbols.map Symbol.name
  disjoint : ∀ entry ∈ program.entries, ∀ external ∈ program.externals,
    entry.name ≠ external.name
  places : ∀ index record, program.records[index]? = some record → program.Places index record
  sizes : ∀ record ∈ program.records, record.Sized
  blocks : ∀ record ∈ program.records, record.operation = .directive .blkw →
    ∃ operand, record.operands = [operand] ∧ program.Counts operand record.size
  length : program.length =
    (program.records.map Record.size).sum + program.literals.length

end Program

namespace Source

theorem recordLines_comment {lines : List String} {text : String}
    (silent : SourceLine.isComment (Text.chomp text) = true) :
    recordLines (lines ++ [text]) = recordLines lines := by
  simp [recordLines, List.zipIdx_append, silent]

theorem recordLines_record {lines : List String} {text : String}
    (record : SourceLine.isComment (Text.chomp text) = false) :
    recordLines (lines ++ [text]) = recordLines lines ++ [(text, lines.length + 1)] := by
  simp [recordLines, List.zipIdx_append, record, Nat.add_comm]

end Source

theorem SourceLine.carries_record {spareCalls number : Nat} {text : String} {line : SourceLine}
    (split : SourceLine.split spareCalls number (Text.chomp text) = .ok line)
    (location : Option Int) (size : Int) :
    Record.Carries (text, number) (line.record location size) :=
  ⟨(split_eq_ok split).1, line, split_of_split split, rfl, rfl, rfl⟩

namespace Draft

/-- Only the end of a segment finishes a program. -/
theorem accept_progress {limits : Limits} {draft : Draft} {line : SourceLine}
    {progress : Progress} (outcome : (draft.accept limits line).outcome = .ok progress) :
    match progress with
    | .more _ => line.operation ≠ .directive .endSegment
    | .done _ => line.operation = .directive .endSegment := by
  unfold accept at outcome
  split at outcome
  · simp at outcome
  · rename_i mnemonic operation
    simp only [Traced.outcome_bind, Traced.outcome_lift, Traced.outcome_map, bind_eq_ok_iff,
      map_eq_ok_iff] at outcome
    obtain ⟨_, _, _, _, _, _, next, _, rfl⟩ := outcome
    simp [operation]
  · rename_i order operation
    simp only [Traced.outcome_bind, Traced.outcome_lift, bind_eq_ok_iff] at outcome
    obtain ⟨_, _, _, _, _, _, obeyed⟩ := outcome
    cases order with
    | endSegment =>
        simp only [obey, Traced.outcome_map, map_eq_ok_iff] at obeyed
        obtain ⟨program, _, rfl⟩ := obeyed
        exact operation
    | fill =>
        simp only [obey, Traced.outcome_bind, Traced.outcome_map, bind_eq_ok_iff,
          map_eq_ok_iff] at obeyed
        obtain ⟨_, _, next, _, rfl⟩ := obeyed
        simp [operation]
    | _ =>
        simp only [obey, Traced.outcome_map, map_eq_ok_iff] at obeyed
        obtain ⟨next, _, rfl⟩ := obeyed
        simp [operation]

theorem blockWords_eq_ok {draft : Draft} {line : SourceLine} {operand : Operand} {words : Int}
    (ranged : operand.kind = .immediate ∨ operand.kind = .symbol)
    (counted : draft.blockWords line operand = .ok words) :
    draft.program.Counts operand words := by
  have checked {size : Int}
      (outcome : (if size ≤ 0 then .error (.reject line.number (.blockSize size))
        else .ok size : Except Failure Int) = .ok words) : size = words := by
    split at outcome
    · cases outcome
    · cases outcome
      rfl
  unfold blockWords at counted
  split at counted
  · rename_i base value form
    rw [← checked counted]
    exact .inl ⟨base, form⟩
  · rename_i other
    have form : operand.form = .symbol := by
      rcases ranged with immediate | symbol
      · obtain ⟨base, value, written⟩ := Form.kind_eq_immediate_iff.mp immediate
        exact absurd written (other base value)
      · exact Form.kind_eq_symbol_iff.mp symbol
    split at counted
    · rename_i symbol found
      split at counted
      · cases counted
      · rename_i fixed
        exact .inr ⟨form, symbol, found, by simpa using fixed, checked counted⟩
    · cases counted

/-- The records so far: only the first one opens the segment, and blocks are as
long as their operands say. -/
structure RecordsSoFar (draft : Draft) : Prop where
  opened : draft.started = true → ∃ first others, draft.program.records = first :: others ∧
    first.operation = .directive .orig ∧
      ∀ record ∈ others, record.operation ≠ .directive .orig
  blocks : ∀ record ∈ draft.program.records, record.operation = .directive .blkw →
    ∃ operand, record.operands = [operand] ∧ draft.program.Counts operand record.size

theorem counts_old {program grown : Program} {added : List Symbol} {operand : Operand}
    {words : Int} (symbols : grown.symbols = program.symbols ++ added)
    (counts : program.Counts operand words) : grown.Counts operand words := by
  rcases counts with ⟨base, form⟩ | ⟨form, symbol, found, fixed, value⟩
  · exact .inl ⟨base, form⟩
  · refine .inr ⟨form, symbol, ?_, fixed, value⟩
    unfold Program.symbol? at found ⊢
    rw [symbols, List.find?_append, found, Option.some_or]

/-- Preparing a line adds symbols at the end. -/
theorem Prepares.symbols {limits : Limits} {draft prepared : Draft} {line : SourceLine}
    {size : Int} {located : Bool} {uses : List Nat}
    (prepares : Prepares limits draft line prepared size located)
    (pools : Pools limits uses draft.program.literals) :
    ∃ added, prepared.program.symbols = draft.program.symbols ++ added := by
  obtain ⟨_, _, defined, _, labelled, same⟩ := prepares.labels pools
  rcases define_eq_ok labelled with unchanged | ⟨name, _, _, added⟩
  · exact ⟨[], by rw [same, unchanged, List.append_nil]⟩
  · exact ⟨_, by rw [same, added]⟩

theorem Prepares.counts {limits : Limits} {draft prepared : Draft} {line : SourceLine}
    {size : Int} {located : Bool}
    (prepares : Prepares limits draft line prepared size located)
    (accepted : line.operation.Accepts line.operands)
    (reserves : line.operation = .directive .blkw) :
    ∃ operand, line.operands = [operand] ∧ draft.program.Counts operand size := by
  cases prepares with
  | @block operand words _ operation first counted _ =>
      rw [operation] at accepted
      have operands := firstOperand_single accepted.2.1 first
      have allowed := accepted.2.2 operand (by simp [operands])
      have ranged : operand.kind = .immediate ∨ operand.kind = .symbol := by
        simpa [Directive.allows, Directive.kinds] using allowed
      exact ⟨operand, operands, blockWords_eq_ok ranged counted⟩
  | _ => simp_all

theorem Takes.recordsSoFar {limits : Limits} {draft next : Draft} {line : SourceLine}
    (taken : Takes limits draft line next) (invariant : draft.Invariant limits)
    (sofar : draft.RecordsSoFar) : next.RecordsSoFar := by
  cases taken with
  | @first segment load unstarted operation _ _ _ =>
      have fresh := invariant.unstarted unstarted
      subst draft
      constructor
      · intro _
        exact ⟨_, [], rfl, operation, by simp⟩
      · intro record member reserves
        have same : record = line.record none 0 := by
          simpa [extended, opened] using member
        rw [same, SourceLine.record, operation] at reserves
        cases reserves
  | @later prepared size located started accepted prepares _ =>
      obtain ⟨frame, _⟩ := prepares.frame_and_pools accepted invariant.pools
      obtain ⟨added, symbols⟩ := prepares.symbols invariant.pools
      constructor
      · intro _
        obtain ⟨first, others, records, opens, rest⟩ := sofar.opened started
        refine ⟨first, others ++ [line.record (if located then some prepared.location else none)
          size], ?_, opens, ?_⟩
        · simp only [extended, frame.records, records, List.cons_append]
        · intro record member
          rcases List.mem_append.mp member with old | new
          · exact rest record old
          · rw [List.mem_singleton.mp new]
            exact prepares.operation_ne_orig
      · intro record member reserves
        simp only [extended, frame.records, List.mem_append, List.mem_singleton] at member
        rcases member with old | new
        · obtain ⟨operand, operands, counts⟩ := sofar.blocks record old reserves
          exact ⟨operand, operands, counts_old symbols counts⟩
        · rw [new] at reserves ⊢
          obtain ⟨operand, operands, counts⟩ := prepares.counts accepted reserves
          exact ⟨operand, operands, counts_old symbols counts⟩

theorem recordsSoFar_inductive (limits : Limits) :
    Inductive limits fun _ _ draft => draft.RecordsSoFar := by
  constructor
  · constructor
    · intro impossible
      cases impossible
    · simp
  · intro count warnings draft sofar
    exact sofar
  · intro count warnings draft next line text progress reachable sofar _ _ taken
    exact taken.recordsSoFar reachable.invariant sofar

namespace Reads

variable {limits : Limits} {lines : List String} {events : List Event} {draft : Draft}

theorem carries (reads : Reads limits lines events draft) :
    List.Forall₂ Record.Carries (Source.recordLines lines) draft.program.records := by
  induction reads with
  | start => exact .nil
  | comment _ silent induction =>
      rw [Source.recordLines_comment silent]
      exact induction
  | record reads record _ split accepted induction =>
      obtain ⟨location, size, records⟩ := Takes.records
        (accept_eq_ok (congrArg Traced.outcome accepted)) reads.reachable.invariant
      rw [Source.recordLines_record record, records]
      exact List.rel_append induction (.cons (SourceLine.carries_record split location size) .nil)

/-- No record before the last one ends the segment. -/
theorem unended (reads : Reads limits lines events draft) :
    ∀ record ∈ draft.program.records, record.operation ≠ .directive .endSegment := by
  induction reads with
  | start => simp
  | comment _ _ induction => exact induction
  | record reads _ _ _ accepted induction =>
      have outcome := congrArg Traced.outcome accepted
      obtain ⟨location, size, records⟩ := Takes.records (accept_eq_ok outcome)
        reads.reachable.invariant
      rw [records]
      intro record member
      rcases List.mem_append.mp member with old | new
      · exact induction record old
      · rw [List.mem_singleton.mp new]
        exact accept_progress outcome

end Reads

end Draft

/-- A record of a layout lies behind the records before it and in front of its
end. -/
theorem LaidOut.getElem? {address after : Int} {records : List Record} {index : Nat}
    {record : Record} (laid : LaidOut address records after)
    (wellFormed : ∀ other ∈ records, other.WellFormed)
    (found : records[index]? = some record) :
    record.location =
        (if record.operation.storage then
          some (address + ((records.take index).map Record.size).sum) else none) ∧
      address + ((records.take index).map Record.size).sum + record.size ≤ after := by
  induction laid generalizing index with
  | nil => cases found
  | @cons address after first records spot laid induction =>
      have restFormed : ∀ other ∈ records, other.WellFormed := fun other member =>
        wellFormed other (by simp [member])
      cases index with
      | zero =>
          cases found
          have inside := laid.le restFormed
          refine ⟨by simpa using spot, by simpa using inside⟩
      | succ index =>
          have sum : address + (((first :: records).take (index + 1)).map Record.size).sum =
              address + first.size + ((records.take index).map Record.size).sum := by
            simp [Int.add_assoc]
          rw [sum]
          exact induction restFormed found

theorem Record.WellFormed.size_of_storage {record : Record} (wellFormed : record.WellFormed) :
    if record.operation.storage then 0 < record.size else record.size = 0 := by
  have sized := wellFormed.sized
  have accepted := wellFormed.accepted
  cases operation : record.operation with
  | instruction mnemonic => simp_all [Record.Sized, Operation.storage]
  | unknown name =>
      rw [operation] at accepted
      exact accepted.elim
  | directive order =>
      cases order with
      | strz =>
          simp only [Record.Sized, operation] at sized
          obtain ⟨_, body, _, _, size⟩ := sized
          simp only [Operation.storage, Directive.storage, if_true]
          omega
      | _ => simp_all [Record.Sized, Operation.storage, Directive.storage]

namespace Program

theorem Assembled.places {limits : Limits} {program : Program}
    (assembled : program.Assembled limits) {index : Nat} {record : Record}
    (found : program.records[index]? = some record) : program.Places index record := by
  obtain ⟨location, inside⟩ := assembled.laidOut.getElem? assembled.wellFormed found
  have size := (assembled.wellFormed record (List.mem_of_getElem? found)).size_of_storage
  have bounded := assembled.bounded
  simp only [maxAddress] at bounded
  unfold Places
  cases storage : record.operation.storage with
  | true =>
      simp only [storage, if_true] at location size ⊢
      refine ⟨location, size, ?_⟩
      rw [addressAt]
      omega
  | false =>
      simp only [storage, Bool.false_eq_true, if_false] at location size ⊢
      exact ⟨location, size⟩

/-- A run that returns a program took in some lines and then finished. -/
theorem read_finishes {limits : Limits} {source : Source} {program : Program}
    (positive : 0 < limits.maxRecords)
    (outcome : (Program.read limits source).outcome = .ok program) :
    ∃ (taken rest : List String) (last : Draft) (exec : Option Int),
      source.lines = taken ++ rest ∧
      List.Forall₂ Record.Carries (Source.recordLines taken) last.program.records ∧
      last.RecordsSoFar ∧ last.started = true ∧ (last.close exec).outcome = .ok program ∧
      program.Finishes limits (Program.read limits source).warnings taken rest := by
  obtain ⟨lines, rest, events, draft, run, cut, reads, stops, same⟩ := read_stops limits source
  have sofar := reads.invariant (Draft.recordsSoFar_inductive limits)
  have records {last : Draft} {exec : Option Int}
      (closed : (last.close exec).outcome = .ok program) :
      program.records = last.program.records := by
    obtain ⟨_, _, _, result⟩ := Draft.close_eq_ok closed
    rw [result]
  rw [same] at outcome ⊢
  rw [Traced.warnings_after]
  cases stops with
  | exhausted => cases outcome
  | malformed _ _ _ => cases outcome
  | refused _ _ _ _ => cases outcome
  | @ceiling text behind record full =>
      have closed : (draft.close none).outcome = .ok program := by simpa using outcome
      have most := reads.records_le (Int.le_of_lt positive)
      have started : draft.started = true := by
        cases opening : draft.started with
        | true => rfl
        | false =>
            have fresh := reads.reachable.invariant.unstarted opening
            rw [fresh] at full
            exact absurd full (by simpa using positive)
      refine ⟨lines, _, draft, none, cut, reads.carries, sofar, started, closed,
        .ceiling rfl record ?_ ?_ ?_⟩
      · rw [records closed]
        omega
      · rw [records closed]
        exact reads.unended
      · rw [Traced.warnings_bind_of_silent fun _ => Draft.warnings_close draft none]
        exact List.mem_append_right _ List.mem_cons_self
  | @ended text behind line noted result record _ split accepted =>
      cases outcome
      have done := congrArg Traced.outcome accepted
      obtain ⟨exec, last, taken, closed⟩ := Draft.accept_eq_ok done
      obtain ⟨location, size, added⟩ := taken.records reads.reachable.invariant
      have started : last.started = true := by
        cases taken with
        | first _ _ _ _ _ => rfl
        | later began accepts prepares _ =>
            obtain ⟨frame, _⟩ := prepares.frame_and_pools accepts
              reads.reachable.invariant.pools
            exact frame.started.trans began
      have whole := (records closed).trans added
      have ends : (line.record location size).operation = .directive .endSegment :=
        Draft.accept_progress done
      refine ⟨lines ++ [text], behind, last, exec, by rw [cut]; simp, ?_,
        taken.recordsSoFar reads.reachable.invariant sofar, started, closed,
        .ended rfl record whole ends reads.unended ?_⟩
      · rw [Source.recordLines_record record, added]
        exact List.rel_append reads.carries
          (.cons (SourceLine.carries_record split location size) .nil)
      · intro warning member
        rcases List.mem_append.mp member with early | late
        · exact reads.code_ne_recordLimit warning early
        · have warns := draft.accept_warns limits line warning
          rw [accepted] at warns
          exact (warns late).code_ne_recordLimit

/-- No record of a program that was read is lost, repeated or out of place. -/
theorem read_recordContract {limits : Limits} {source : Source} {program : Program}
    (positive : 0 < limits.maxRecords)
    (outcome : (Program.read limits source).outcome = .ok program) :
    program.RecordContract limits source (Program.read limits source).warnings := by
  have assembled := assembled_of_read outcome
  have exec := execAddress_of_read outcome
  obtain ⟨taken, rest, last, start, cut, carries, sofar, started, closed, finishes⟩ :=
    read_finishes positive outcome
  obtain ⟨_, _, _, result⟩ := Draft.close_eq_ok closed
  have records : program.records = last.program.records := by rw [result]
  have symbols : program.symbols = last.program.symbols ++ [] := by
    rw [result, List.append_nil]
  have entries : ∀ entry ∈ program.entries, entry.name ∈ program.symbols.map Symbol.name := by
    intro entry member
    have defined := assembled.entries entry member
    rw [hasSymbol, Option.isSome_iff_ne_none, ne_eq, symbol?_eq_none_iff, not_not] at defined
    exact defined
  have externals : ∀ external ∈ program.externals,
      external.name ∉ program.symbols.map Symbol.name := fun external member =>
    symbol?_eq_none_iff.mp (assembled.externals external member)
  constructor
  · exact ⟨taken, rest, cut, records ▸ carries, finishes⟩
  · rw [records]
    exact sofar.opened started
  · exact assembled.frozen
  · exact ⟨assembled.nonnegative, exec.1, exec.2⟩
  · exact entries
  · exact externals
  · intro entry entryMember external externalMember same
    exact externals external externalMember (same ▸ entries entry entryMember)
  · exact fun index record found => assembled.places found
  · exact fun record member => (assembled.wellFormed record member).sized
  · rw [records]
    intro record member reserves
    obtain ⟨operand, operands, counts⟩ := sofar.blocks record member reserves
    exact ⟨operand, operands, Draft.counts_old symbols counts⟩
  · have length := assembled.length
    rw [poolStart] at length
    omega

end Program

/-- A segment with comments and a block of a named size. -/
def commentedSegment : Source :=
  .ofLines
    ["; a block and a string",
      "DEMO     .ORIG   x3000",
      "COUNT    .EQU    x2",
      ";",
      "BUF      .BLKW   COUNT",
      "TEXT     .STRZ   \"a, b\"   ; with blanks",
      "         .END    BUF",
      "nothing is read here"]

/-- The segment is read up to its end, or up to a ceiling of three records. -/
theorem commentedSegment_recordContract :
    ∃ program cut,
      (Program.read {} commentedSegment).outcome = .ok program ∧
      program.RecordContract {} commentedSegment (Program.read {} commentedSegment).warnings ∧
      (Program.read { maxRecords := 3 } commentedSegment).outcome = .ok cut ∧
      cut.RecordContract { maxRecords := 3 } commentedSegment
        (Program.read { maxRecords := 3 } commentedSegment).warnings := by
  have succeeds : (Program.read {} commentedSegment).outcome.isOk = true := by decide +kernel
  have stops : (Program.read { maxRecords := 3 } commentedSegment).outcome.isOk = true := by
    decide +kernel
  obtain ⟨program, read⟩ := exists_eq_ok succeeds
  obtain ⟨cut, ceiling⟩ := exists_eq_ok stops
  exact ⟨program, cut, read, Program.read_recordContract (by decide) read, ceiling,
    Program.read_recordContract (by decide) ceiling⟩

end Lc3Assembler
