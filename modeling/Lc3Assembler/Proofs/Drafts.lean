import Lc3Assembler.Proofs.Records

/-!
# Invariant of drafts

Every reachable draft is open, holds well-formed records that are laid out from
the first address up to the location counter, and pools the literals of its
records in the order of their first use as far as the limit allows.  Closing
such a draft places the pool right behind the records, which gives the contract
`Program.Assembled` between reading and encoding.
-/

namespace Lc3Assembler

/-- The words that the records of a program ask the pool for, in order. -/
def Program.literalUses (program : Program) : List Nat :=
  program.records.flatMap Record.literalWords

/-- A pool that is not placed yet: the words of some uses in the order of
their first use, cut off at the limit. -/
structure Pools (limits : Limits) (uses : List Nat) (literals : List Literal) : Prop where
  words : literals.map Literal.word = uses.eraseDups.take limits.maxLiterals.toNat
  unplaced : ∀ literal ∈ literals, literal.address = Literal.unplaced

theorem Program.hasLiteral_iff (program : Program) (value : Int) :
    program.hasLiteral value = true ↔ wordOf value ∈ program.literals.map Literal.word := by
  simp [hasLiteral, literal?, List.find?_isSome]

theorem eraseDups_concat (uses : List Nat) (word : Nat) :
    (uses ++ [word]).eraseDups =
      if word ∈ uses then uses.eraseDups else uses.eraseDups ++ [word] := by
  rw [List.eraseDups_append]
  by_cases member : word ∈ uses
  · simp [member, List.removeAll]
  · simp [member, List.removeAll, List.eraseDups_cons]

namespace Pools

theorem nil (limits : Limits) : Pools limits [] [] := by
  constructor
  · simp
  · simp

theorem keep {limits : Limits} {uses : List Nat} {literals : List Literal} {word : Nat}
    (pools : Pools limits uses literals) (present : word ∈ literals.map Literal.word) :
    Pools limits (uses ++ [word]) literals := by
  have used : word ∈ uses := by
    rw [pools.words] at present
    exact List.mem_eraseDups.mp (List.mem_of_mem_take present)
  refine ⟨?_, pools.unplaced⟩
  rw [eraseDups_concat, if_pos used, pools.words]

theorem drop {limits : Limits} {uses : List Nat} {literals : List Literal} {word : Nat}
    (pools : Pools limits uses literals)
    (full : limits.maxLiterals ≤ literals.length) :
    Pools limits (uses ++ [word]) literals := by
  have counted := congrArg List.length pools.words
  rw [List.length_map, List.length_take] at counted
  refine ⟨?_, pools.unplaced⟩
  rw [eraseDups_concat]
  split
  · exact pools.words
  · rw [List.take_append_of_le_length (by omega)]
    exact pools.words

theorem add {limits : Limits} {uses : List Nat} {literals : List Literal} {word : Nat}
    (pools : Pools limits uses literals) (absent : word ∉ literals.map Literal.word)
    (space : literals.length < limits.maxLiterals) :
    Pools limits (uses ++ [word])
      (literals ++ [{ word := word, address := Literal.unplaced }]) := by
  -- A pool with space left holds every use so far.
  have counted := congrArg List.length pools.words
  rw [List.length_map, List.length_take] at counted
  have complete : literals.map Literal.word = uses.eraseDups := by
    rw [pools.words, List.take_of_length_le (by omega)]
  have unused : word ∉ uses := by
    intro used
    rw [complete] at absent
    exact absent (List.mem_eraseDups.mpr used)
  constructor
  · rw [eraseDups_concat, if_neg unused, List.take_of_length_le]
    · simp [complete]
    · have length := congrArg List.length complete
      rw [List.length_map] at length
      rw [List.length_append, List.length_singleton]
      omega
  · intro literal member
    rcases List.mem_append.mp member with old | new
    · exact pools.unplaced literal old
    · rw [List.mem_singleton.mp new]

end Pools

namespace Draft

theorem define_eq_ok {limits : Limits} {draft defined : Draft} {line : SourceLine}
    {value : Int} {relocatable : Bool}
    (outcome : (draft.define limits line value relocatable).outcome = .ok defined) :
    defined = draft ∨
      ∃ name, line.label = some name ∧ draft.program.symbol? name = none ∧
        defined =
          { draft with
            program :=
              { draft.program with
                symbols := draft.program.symbols ++
                  [Symbol.define name value relocatable (some line.number)] } } := by
  unfold define at outcome
  split at outcome
  · exact .inl (by simpa using outcome.symm)
  · rename_i name labelled
    split at outcome
    · exact .inl (by simpa using outcome.symm)
    · simp only [Traced.outcome_bind, Traced.outcome_lift, Traced.outcome_note, ok_bind,
        Traced.outcome_pure, bind_eq_ok_iff, Program.defineSymbol, Program.ifOpen] at outcome
      obtain ⟨program, added, result⟩ := outcome
      split at added
      · cases added
      · split at added
        · cases added
        · rename_i absent
          cases added
          cases result
          exact .inr ⟨name, labelled, absent, rfl⟩

theorem pool_eq_ok {limits : Limits} {number : Int} {program pooled : Program}
    {operand : Operand} {uses : List Nat} (pools : Pools limits uses program.literals)
    (outcome : (pool limits number program operand).outcome = .ok pooled) :
    pooled = { program with literals := pooled.literals } ∧
      Pools limits (uses ++ operand.literalWord?.toList) pooled.literals := by
  unfold pool at outcome
  split at outcome
  · rename_i base value form
    have word : operand.literalWord? = some (wordOf value) := by
      simp [Operand.literalWord?, form]
    rw [word]
    split at outcome
    · simp at outcome
    · split at outcome
      · rename_i present
        cases outcome
        exact ⟨rfl, pools.keep ((program.hasLiteral_iff value).mp present)⟩
      · rename_i absent
        split at outcome
        · rename_i full
          cases outcome
          exact ⟨rfl, pools.drop full⟩
        · rename_i space
          simp only [Traced.outcome_bind, Traced.outcome_lift, Traced.outcome_note, ok_bind,
            Traced.outcome_pure, bind_eq_ok_iff, Program.addLiteral, Program.ifOpen, absent]
            at outcome
          obtain ⟨⟨added, new⟩, result, equality⟩ := outcome
          split at result
          · cases result
          · cases result
            cases equality
            refine ⟨rfl, pools.add ?_ (Int.not_le.mp space)⟩
            intro member
            exact absent ((program.hasLiteral_iff value).mpr member)
  · rename_i other
    have word : operand.literalWord? = none := by
      unfold Operand.literalWord?
      split
      · rename_i form
        exact absurd form (other _ _)
      · rfl
    cases outcome
    rw [word]
    exact ⟨rfl, by simpa using pools⟩

theorem poolAll_eq_ok {limits : Limits} {number : Int} {program pooled : Program}
    {operands : List Operand} {uses : List Nat}
    (pools : Pools limits uses program.literals)
    (outcome : (poolAll limits number program operands).outcome = .ok pooled) :
    pooled = { program with literals := pooled.literals } ∧
      Pools limits (uses ++ operands.filterMap Operand.literalWord?) pooled.literals := by
  induction operands generalizing program uses with
  | nil =>
      cases outcome
      exact ⟨rfl, by simpa using pools⟩
  | cons operand operands induction =>
      simp only [poolAll, Traced.outcome_bind, bind_eq_ok_iff] at outcome
      obtain ⟨middle, head, tail⟩ := outcome
      obtain ⟨headFrame, headPools⟩ := pool_eq_ok pools head
      obtain ⟨tailFrame, tailPools⟩ := induction headPools tail
      constructor
      · rw [tailFrame, headFrame]
      · cases word : operand.literalWord? with
        | none => simpa [word] using tailPools
        | some value => simpa [word] using tailPools

/-- The tables of declared names are all that a declaration changes. -/
def Declares (before after : Program) : Prop :=
  after = { before with entries := after.entries, externals := after.externals }

theorem declares_addEntry {program declared : Program} {name : String} {line : Option Int}
    (outcome : program.addEntry name line = .ok declared) : Declares program declared := by
  unfold Program.addEntry Program.ifOpen at outcome
  split at outcome
  · cases outcome
  · cases outcome
    rfl

theorem declares_addExternal {program declared : Program} {name : String}
    {line : Option Int} (outcome : program.addExternal name line = .ok declared) :
    Declares program declared := by
  unfold Program.addExternal Program.ifOpen at outcome
  split at outcome
  · cases outcome
  · cases outcome
    rfl

theorem declareAll_eq_ok {add : Program → String → Option Int → Except Failure Program}
    (declares : ∀ {program name line declared},
      add program name line = .ok declared → Declares program declared)
    {number : Int} {program declared : Program} {operands : List Operand}
    (outcome : declareAll add number program operands = .ok declared) :
    Declares program declared := by
  induction operands generalizing program with
  | nil =>
      cases outcome
      rfl
  | cons operand operands induction =>
      simp only [declareAll, bind_eq_ok_iff] at outcome
      obtain ⟨middle, head, tail⟩ := outcome
      have headDeclares := declares head
      have tailDeclares := induction tail
      unfold Declares at headDeclares tailDeclares ⊢
      rw [headDeclares] at tailDeclares
      exact tailDeclares

/-- What every reachable draft satisfies. -/
structure Invariant (limits : Limits) (draft : Draft) : Prop where
  unstarted : draft.started = false → draft = {}
  unfrozen : draft.program.frozen = false
  wellFormed : ∀ record ∈ draft.program.records, record.WellFormed
  laidOut : LaidOut draft.program.firstAddress draft.program.records draft.location
  nonnegative : 0 ≤ draft.program.firstAddress
  bounded : draft.location ≤ maxAddress
  pools : Pools limits draft.program.literalUses draft.program.literals

/-- What preparing a line leaves as it was. -/
structure Frame (before after : Draft) : Prop where
  records : after.program.records = before.program.records
  firstAddress : after.program.firstAddress = before.program.firstAddress
  relocatable : after.program.relocatable = before.program.relocatable
  frozen : after.program.frozen = before.program.frozen
  location : after.location = before.location
  started : after.started = before.started

theorem define_frame {limits : Limits} {draft defined : Draft} {line : SourceLine}
    {value : Int} {relocatable : Bool}
    (outcome : (draft.define limits line value relocatable).outcome = .ok defined) :
    Frame draft defined ∧ defined.program.literals = draft.program.literals := by
  rcases define_eq_ok outcome with same | ⟨name, _, _, added⟩
  · subst defined
    exact ⟨⟨rfl, rfl, rfl, rfl, rfl, rfl⟩, rfl⟩
  · subst defined
    exact ⟨⟨rfl, rfl, rfl, rfl, rfl, rfl⟩, rfl⟩

theorem Frame.declares {before defined : Draft} {program : Program}
    (frame : Frame before defined) (declares : Declares defined.program program) :
    Frame before { defined with program } := by
  rw [declares]
  exact ⟨frame.records, frame.firstAddress, frame.relocatable, frame.frozen,
    frame.location, frame.started⟩

theorem Frame.pooled {before defined : Draft} {program : Program}
    (frame : Frame before defined)
    (pooled : program = { defined.program with literals := program.literals }) :
    Frame before { defined with program } := by
  rw [pooled]
  exact ⟨frame.records, frame.firstAddress, frame.relocatable, frame.frozen,
    frame.location, frame.started⟩

end Draft

/-- Only instructions use literals. -/
theorem literalWords_directive {order : Directive} {operands : List Operand}
    (accepted : (Operation.directive order).Accepts operands) :
    operands.filterMap Operand.literalWord? = [] := by
  rw [List.filterMap_eq_nil_iff]
  intro operand member
  have allowed := accepted.2.2 operand member
  unfold Operand.literalWord?
  split
  · rename_i base value form
    have kind : operand.kind = .literal := by simp [Operand.kind, form, Form.kind]
    rw [kind] at allowed
    cases order <;> simp [Directive.allows, Directive.kinds] at allowed
  · rfl

namespace Draft

theorem blockWords_pos {draft : Draft} {line : SourceLine} {operand : Operand} {words : Int}
    (counted : draft.blockWords line operand = .ok words) : 0 < words := by
  have checked {size : Int}
      (outcome : (if size ≤ 0 then .error (.reject line.number (.blockSize size))
        else .ok size : Except Failure Int) = .ok words) : 0 < words := by
    split at outcome
    · cases outcome
    · rename_i positive
      cases outcome
      exact Int.not_le.mp positive
  unfold blockWords at counted
  split at counted
  · exact checked counted
  · split at counted
    · split at counted
      · cases counted
      · exact checked counted
    · cases counted

namespace Prepares

theorem frame_and_pools {limits : Limits} {draft prepared : Draft} {line : SourceLine}
    {size : Int} {located : Bool} {uses : List Nat}
    (prepares : Prepares limits draft line prepared size located)
    (accepted : line.operation.Accepts line.operands)
    (pools : Pools limits uses draft.program.literals) :
    Frame draft prepared ∧
      Pools limits (uses ++ line.operands.filterMap Operand.literalWord?)
        prepared.program.literals := by
  -- A directive uses no literals, so its pool is that of its label's definition.
  have silent {order : Directive} {after : Draft}
      (operation : line.operation = .directive order)
      (same : after.program.literals = draft.program.literals) :
      Pools limits (uses ++ line.operands.filterMap Operand.literalWord?)
        after.program.literals := by
    rw [operation] at accepted
    rw [literalWords_directive accepted, List.append_nil, same]
    exact pools
  cases prepares with
  | equate operation _ _ labelled =>
      obtain ⟨frame, same⟩ := define_frame labelled
      exact ⟨frame, silent operation same⟩
  | fill operation labelled =>
      obtain ⟨frame, same⟩ := define_frame labelled
      exact ⟨frame, silent operation same⟩
  | string operation _ labelled =>
      obtain ⟨frame, same⟩ := define_frame labelled
      exact ⟨frame, silent operation same⟩
  | block operation _ _ labelled =>
      obtain ⟨frame, same⟩ := define_frame labelled
      exact ⟨frame, silent operation same⟩
  | entry operation labelled declared =>
      obtain ⟨frame, same⟩ := define_frame labelled
      have declares := declareAll_eq_ok declares_addEntry declared
      refine ⟨frame.declares declares, silent operation ?_⟩
      rw [← same, declares]
  | external operation labelled declared =>
      obtain ⟨frame, same⟩ := define_frame labelled
      have declares := declareAll_eq_ok declares_addExternal declared
      refine ⟨frame.declares declares, silent operation ?_⟩
      rw [← same, declares]
  | last operation _ => exact ⟨⟨rfl, rfl, rfl, rfl, rfl, rfl⟩, silent operation rfl⟩
  | instruction operation labelled pooled =>
      obtain ⟨frame, same⟩ := define_frame labelled
      rw [← same] at pools
      obtain ⟨poolFrame, grown⟩ := poolAll_eq_ok pools pooled
      exact ⟨frame.pooled poolFrame, grown⟩

theorem sized {limits : Limits} {draft prepared : Draft} {line : SourceLine}
    {size : Int} {located : Bool}
    (prepares : Prepares limits draft line prepared size located)
    (parsed : ∀ operand ∈ line.operands, operand.Parsed)
    (accepted : line.operation.Accepts line.operands) (location : Option Int) :
    (line.record location size).Sized ∧ located = line.operation.storage := by
  cases prepares with
  | @string operand _ operation first _ =>
      rw [operation] at accepted
      have operands := firstOperand_single accepted.2.1 first
      have member : operand ∈ line.operands := by simp [operands]
      have kind : operand.kind = .string := by
        simpa [Directive.allows, Directive.kinds] using accepted.2.2 operand member
      obtain ⟨body, characters, count⟩ := (parsed operand member).stringBody? kind
      refine ⟨?_, by simp [operation, Operation.storage, Directive.storage]⟩
      simp only [Record.Sized, SourceLine.record, operation]
      exact ⟨operand, body, operands, characters, count⟩
  | block operation _ counted _ =>
      have positive := blockWords_pos counted
      simpa [Record.Sized, SourceLine.record, operation, Operation.storage,
        Directive.storage] using positive
  | equate operation _ _ _ =>
      simp [Record.Sized, SourceLine.record, operation, Operation.storage, Directive.storage]
  | fill operation _ =>
      simp [Record.Sized, SourceLine.record, operation, Operation.storage, Directive.storage]
  | entry operation _ _ =>
      simp [Record.Sized, SourceLine.record, operation, Operation.storage, Directive.storage]
  | external operation _ _ =>
      simp [Record.Sized, SourceLine.record, operation, Operation.storage, Directive.storage]
  | last operation _ =>
      simp [Record.Sized, SourceLine.record, operation, Operation.storage, Directive.storage]
  | instruction operation _ _ =>
      simp [Record.Sized, SourceLine.record, operation, Operation.storage]

end Prepares

theorem literalUses_extended (draft : Draft) (line : SourceLine) (size : Int)
    (located : Bool) :
    (draft.extended line size located).program.literalUses =
      draft.program.literalUses ++ line.operands.filterMap Operand.literalWord? := by
  simp [extended, Program.literalUses, Record.literalWords, SourceLine.record]

theorem loadAddress_eq_ok {line : SourceLine} {load : Option Int}
    (loaded : loadAddress line = .ok load) :
    0 ≤ load.getD 0 ∧ load.getD 0 ≤ maxAddress := by
  unfold loadAddress at loaded
  split at loaded
  · cases loaded
    decide
  · split at loaded
    · cases loaded
    · split at loaded
      · cases loaded
      · rename_i inside
        cases loaded
        simp only [not_or, Int.not_lt] at inside
        exact inside

theorem Takes.invariant {limits : Limits} {draft next : Draft} {line : SourceLine}
    (taken : Takes limits draft line next)
    (parsed : ∀ operand ∈ line.operands, operand.Parsed)
    (invariant : draft.Invariant limits) : next.Invariant limits := by
  cases taken with
  | @first segment load unstarted operation accepted named loaded =>
      have fresh := invariant.unstarted unstarted
      subst draft
      obtain ⟨low, high⟩ := loadAddress_eq_ok loaded
      have sized : (line.record none 0).Sized := by
        simp [Record.Sized, SourceLine.record, operation]
      constructor
      · intro impossible
        cases impossible
      · rfl
      · intro record member
        have same : record = line.record none 0 := by
          simpa [extended, opened] using member
        rw [same]
        exact ⟨parsed, accepted, sized⟩
      · have located : (line.record none 0).location =
            if (line.record none 0).operation.storage then some (load.getD 0) else none := by
          simp [SourceLine.record, operation, Operation.storage, Directive.storage]
        exact LaidOut.nil.concat located
      · exact low
      · simpa [extended, opened] using high
      · rw [operation] at accepted
        rw [literalUses_extended, literalWords_directive accepted]
        exact Pools.nil limits
  | @later prepared size located started accepted prepares fits =>
      obtain ⟨frame, pools⟩ := prepares.frame_and_pools accepted invariant.pools
      obtain ⟨sized, stored⟩ := prepares.sized parsed accepted
        (if located then some prepared.location else none)
      constructor
      · intro impossible
        have still : prepared.started = true := frame.started.trans started
        exact absurd (still.symm.trans impossible) (by decide)
      · exact frame.frozen.trans invariant.unfrozen
      · intro record member
        simp only [extended, frame.records, List.mem_append, List.mem_singleton] at member
        rcases member with old | new
        · exact invariant.wellFormed record old
        · rw [new]
          exact ⟨parsed, accepted, sized⟩
      · have laidOut := invariant.laidOut
        rw [← frame.records, ← frame.firstAddress, ← frame.location] at laidOut
        apply laidOut.concat
        simp [SourceLine.record, stored]
      · exact frame.firstAddress ▸ invariant.nonnegative
      · by_cases empty : size = 0
        · have bounded := invariant.bounded
          rw [← frame.location] at bounded
          simpa [extended, empty] using bounded
        · exact fits empty
      · rw [literalUses_extended, Program.literalUses, frame.records]
        exact pools

theorem Reachable.invariant {limits : Limits} {draft : Draft}
    (reachable : Reachable limits draft) : draft.Invariant limits := by
  induction reachable with
  | start =>
      exact ⟨fun _ => rfl, rfl, by simp, .nil, by decide, by decide, Pools.nil limits⟩
  | step _ split taken induction =>
      exact taken.invariant (SourceLine.parsed_of_split split) induction

end Draft

namespace Program

/-- The address behind the last record. -/
def poolStart (program : Program) : Int :=
  program.firstAddress + (program.records.map Record.size).sum

theorem map_address_placeFrom (start : Int) (literals : List Literal) :
    (placeFrom start literals).map Literal.address =
      addressesFrom start literals.length := by
  induction literals generalizing start with
  | nil => rfl
  | cons literal rest induction =>
      rw [placeFrom, List.map_cons, induction, List.length_cons, addressesFrom_succ]

theorem placeLiterals_eq_ok {program placed : Program} {start after : Int}
    (outcome : program.placeLiterals start = .ok (placed, after)) :
    program.frozen = false ∧
      (program.literals ≠ [] → start + program.literals.length ≤ maxAddress) ∧
      after = start + program.literals.length ∧
      placed = { program with literals := placeFrom start program.literals } := by
  simp only [placeLiterals, ifOpen] at outcome
  split at outcome
  · cases outcome
  · rename_i unfrozen
    split at outcome
    · cases outcome
    · split at outcome
      · cases outcome
      · rename_i inside
        cases outcome
        refine ⟨by simpa using unfrozen, ?_, rfl, rfl⟩
        intro nonempty
        exact Int.not_lt.mp (fun beyond => inside ⟨nonempty, beyond⟩)

theorem freeze_eq_ok {program frozen : Program} (unfrozen : program.frozen = false)
    (outcome : program.freeze = .ok frozen) :
    program.undefinedEntry? = none ∧ program.definedExternal? = none ∧
      program.firstAddress ≤ program.execAddress ∧ program.execAddress ≤ maxAddress ∧
      frozen = { program with frozen := true } := by
  simp only [freeze, unfrozen, Bool.false_eq_true, if_false] at outcome
  split at outcome
  · cases outcome
  · cases outcome
  · rename_i entries externals
    split at outcome
    · cases outcome
    · split at outcome
      · cases outcome
      · rename_i inside
        cases outcome
        simp only [not_or, Int.not_lt] at inside
        exact ⟨entries, externals, inside.1, inside.2, rfl⟩

/-- What encoding may rely on. -/
structure Assembled (limits : Limits) (program : Program) : Prop where
  frozen : program.frozen = true
  wellFormed : ∀ record ∈ program.records, record.WellFormed
  laidOut : LaidOut program.firstAddress program.records program.poolStart
  nonnegative : 0 ≤ program.firstAddress
  bounded : program.poolStart + program.literals.length ≤ maxAddress
  length : program.length =
    program.poolStart + program.literals.length - program.firstAddress
  addresses : program.literals.map Literal.address =
    addressesFrom program.poolStart program.literals.length
  words : program.literals.map Literal.word =
    program.literalUses.eraseDups.take limits.maxLiterals.toNat
  entries : ∀ entry ∈ program.entries, program.hasSymbol entry.name = true
  externals : ∀ external ∈ program.externals, program.symbol? external.name = none

end Program

theorem Draft.close_eq_ok {draft : Draft} {exec : Option Int} {program : Program}
    (outcome : (draft.close exec).outcome = .ok program) :
    (draft.program.literals ≠ [] →
        draft.location + draft.program.literals.length ≤ maxAddress) ∧
      program.undefinedEntry? = none ∧ program.definedExternal? = none ∧
      program =
        { draft.program with
          literals := Program.placeFrom draft.location draft.program.literals
          length := draft.location + draft.program.literals.length -
            draft.program.firstAddress
          execAddress := program.execAddress
          frozen := true } := by
  simp only [close, Traced.outcome_bind, Traced.outcome_lift, Traced.outcome_note, ok_bind,
    Traced.outcome_pure, bind_eq_ok_iff, Except.ok.injEq] at outcome
  obtain ⟨⟨placed, after⟩, placement, frozen, freezing, rfl⟩ := outcome
  obtain ⟨unfrozen, inside, rfl, rfl⟩ := Program.placeLiterals_eq_ok placement
  obtain ⟨entries, externals, _, _, rfl⟩ := Program.freeze_eq_ok (by exact unfrozen) freezing
  exact ⟨inside, entries, externals, rfl⟩

/-- A segment starts inside of itself or behind it. -/
theorem Draft.execAddress_of_close {draft : Draft} {exec : Option Int} {program : Program}
    (outcome : (draft.close exec).outcome = .ok program) :
    program.firstAddress ≤ program.execAddress ∧ program.execAddress ≤ maxAddress := by
  simp only [close, Traced.outcome_bind, Traced.outcome_lift, Traced.outcome_note, ok_bind,
    Traced.outcome_pure, bind_eq_ok_iff, Except.ok.injEq] at outcome
  obtain ⟨⟨placed, after⟩, placement, frozen, freezing, rfl⟩ := outcome
  obtain ⟨unfrozen, _, rfl, rfl⟩ := Program.placeLiterals_eq_ok placement
  obtain ⟨_, _, low, high, rfl⟩ := Program.freeze_eq_ok (by exact unfrozen) freezing
  exact ⟨low, high⟩

theorem Draft.Invariant.assembled {limits : Limits} {draft : Draft} {exec : Option Int}
    {program : Program} (invariant : draft.Invariant limits)
    (outcome : (draft.close exec).outcome = .ok program) : program.Assembled limits := by
  obtain ⟨inside, entries, externals, result⟩ := close_eq_ok outcome
  have start : program.poolStart = draft.location := by
    rw [Program.poolStart, result]
    exact invariant.laidOut.after_eq.symm
  have count : program.literals.length = draft.program.literals.length := by
    rw [result, Program.length_placeFrom]
  constructor
  · rw [result]
  · rw [result]
    exact invariant.wellFormed
  · rw [start, result]
    exact invariant.laidOut
  · rw [result]
    exact invariant.nonnegative
  · rw [start, count]
    by_cases empty : draft.program.literals = []
    · rw [empty]
      simpa using invariant.bounded
    · exact inside empty
  · rw [start, count, result]
  · rw [start, count, result]
    exact Program.map_address_placeFrom _ _
  · rw [result]
    exact (Program.map_word_placeFrom _ _).trans invariant.pools.words
  · intro entry member
    have found := List.find?_eq_none.mp entries entry member
    simpa using found
  · intro external member
    have found := List.findSome?_eq_none_iff.mp externals external member
    simpa using found

/-- A program that was read keeps the contract between reading and encoding. -/
theorem Program.assembled_of_read {limits : Limits} {source : Source} {program : Program}
    (outcome : (Program.read limits source).outcome = .ok program) :
    program.Assembled limits := by
  obtain ⟨exec, last, reachable, closed⟩ := Program.read_eq_ok outcome
  exact reachable.invariant.assembled closed

theorem Program.execAddress_of_read {limits : Limits} {source : Source} {program : Program}
    (outcome : (Program.read limits source).outcome = .ok program) :
    program.firstAddress ≤ program.execAddress ∧ program.execAddress ≤ maxAddress := by
  obtain ⟨exec, last, _, closed⟩ := Program.read_eq_ok outcome
  exact Draft.execAddress_of_close closed

end Lc3Assembler
