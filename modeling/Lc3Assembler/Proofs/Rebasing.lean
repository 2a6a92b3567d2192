import Lc3Assembler.Proofs.Following
import Lc3Assembler.Proofs.Drafts

/-!
# Reading a segment at another address

A relocatable segment and the same segment at a load address are read side by
side.  What moves with the segment differs by the address: locations of
records, relocatable symbols and placed literals.  Everything else is the same,
so each step of the second run follows the step of the first.
-/

namespace Lc3Assembler

/-- The value of something that may move with its segment. -/
def movedValue (address : Int) (moves : Bool) (value : Int) : Int :=
  if moves then value + address else value

@[simp] theorem movedValue_zero (moves : Bool) (value : Int) :
    movedValue 0 moves value = value := by
  simp [movedValue]

/-- A value that stays an address when it moves. -/
def MovesInside (address : Int) (moves : Bool) (value : Int) : Prop :=
  moves = true → 0 ≤ value ∧ 0 ≤ address ∧ value + address ≤ maxAddress

/-- A symbol at the load address. -/
structure Symbol.Moved (address : Int) (symbol moved : Symbol) : Prop where
  name : moved.name = symbol.name
  fixed : moved.relocatable = false
  value : (moved.value : Int) = movedValue address symbol.relocatable symbol.value
  signed : moved.signedValue = movedValue address symbol.relocatable symbol.signedValue
  inside : MovesInside address symbol.relocatable symbol.signedValue

/-- A literal at the load address. -/
structure Literal.Moved (address : Int) (literal moved : Literal) : Prop where
  word : moved.word = literal.word
  address : moved.address = literal.address + address

/-- A record at the load address.  Only the operand of the first record tells
the two segments apart. -/
structure Record.Moved (address : Int) (record moved : Record) : Prop where
  line : moved.line = record.line
  operation : moved.operation = record.operation
  operands : record.operation ≠ .directive .orig → moved.operands = record.operands
  location : moved.location = record.location.map (· + address)

/-- A program at the load address, except for its literals. -/
structure Program.Moved (address : Int) (program moved : Program) : Prop where
  relocatable : program.relocatable = true
  fixed : moved.relocatable = false
  firstAddress : program.firstAddress = 0
  loadAddress : moved.firstAddress = address
  records : List.Forall₂ (Record.Moved address) program.records moved.records
  symbols : List.Forall₂ (Symbol.Moved address) program.symbols moved.symbols
  entries : moved.entries = program.entries
  externals : moved.externals = program.externals
  frozen : moved.frozen = program.frozen

/-- Programs whose literals are not placed yet. -/
structure Program.MovedOpen (address : Int) (program moved : Program) : Prop where
  parts : program.Moved address moved
  literals : moved.literals = program.literals

/-- Programs whose literals are placed. -/
structure Program.MovedPlaced (address : Int) (program moved : Program) : Prop where
  parts : program.Moved address moved
  literals : List.Forall₂ (Literal.Moved address) program.literals moved.literals

/-- A draft at the load address. -/
structure Draft.Moved (address : Int) (draft moved : Draft) : Prop where
  program : draft.program.MovedOpen address moved.program
  location : moved.location = draft.location + address
  started : draft.started = true
  startedToo : moved.started = true

/-- The states after a record of both segments. -/
inductive Progress.Moved (address : Int) : Progress → Progress → Prop where
  | more {draft moved : Draft} (drafts : draft.Moved address moved) :
      Progress.Moved address (.more draft) (.more moved)
  | done {program moved : Program} (programs : program.MovedPlaced address moved) :
      Progress.Moved address (.done program) (.done moved)

theorem find?_of_forall₂ {related : α → β → Prop} {left : List α} {right : List β}
    {test : α → Bool} {otherTest : β → Bool} (pairs : List.Forall₂ related left right)
    (agrees : ∀ item other, related item other → otherTest other = test item) :
    (left.find? test = none ∧ right.find? otherTest = none) ∨
      ∃ item other, left.find? test = some item ∧ right.find? otherTest = some other ∧
        related item other := by
  induction pairs with
  | nil => exact .inl ⟨rfl, rfl⟩
  | @cons item other _ _ head _ induction =>
      rw [List.find?_cons, List.find?_cons, agrees item other head]
      cases test item with
      | true => exact .inr ⟨item, other, rfl, rfl, head⟩
      | false => exact induction

theorem wordOf_of_inside {value : Int} (low : 0 ≤ value) (high : value ≤ maxAddress) :
    (wordOf value : Int) = value := by
  simp only [maxAddress] at high
  simp only [wordOf, wordCount]
  omega

theorem Symbol.moved_define {address value : Int} {relocatable : Bool}
    (inside : MovesInside address relocatable value) (name : String) (line : Option Int) :
    (Symbol.define name value relocatable line).Moved address
      (Symbol.define name (movedValue address relocatable value) false line) := by
  cases relocatable with
  | false => exact ⟨rfl, rfl, rfl, rfl, by intro impossible; cases impossible⟩
  | true =>
      obtain ⟨low, up, high⟩ := inside rfl
      have nonnegative : ¬ value < 0 := by omega
      have movedNonnegative : ¬ value + address < 0 := by omega
      have word := wordOf_of_inside low (by omega)
      have movedWord := wordOf_of_inside (show 0 ≤ value + address by omega) high
      refine ⟨rfl, rfl, ?_, ?_, ?_⟩
      · simp [Symbol.define, movedValue, word, movedWord]
      · simp [Symbol.define, Symbol.signedValue, movedValue, nonnegative, movedNonnegative, word,
          movedWord]
      · intro _
        simpa [Symbol.define, Symbol.signedValue, nonnegative, word] using inside rfl

namespace Program.Moved

variable {address : Int} {program moved : Program}

/-- A name is defined in both programs or in none. -/
theorem symbol? (parts : program.Moved address moved) (name : String) :
    (program.symbol? name = none ∧ moved.symbol? name = none) ∨
      ∃ symbol other, program.symbol? name = some symbol ∧ moved.symbol? name = some other ∧
        symbol.Moved address other := by
  apply find?_of_forall₂ parts.symbols
  intro symbol other relation
  rw [relation.name]

theorem hasSymbol (parts : program.Moved address moved) (name : String) :
    moved.hasSymbol name = program.hasSymbol name := by
  rcases parts.symbol? name with ⟨absent, alsoAbsent⟩ | ⟨symbol, other, found, alsoFound, _⟩
  · simp [Program.hasSymbol, absent, alsoAbsent]
  · simp [Program.hasSymbol, found, alsoFound]

theorem isExternal (parts : program.Moved address moved) (name : String) :
    moved.isExternal name = program.isExternal name := by
  rw [Program.isExternal, Program.isExternal, parts.externals]

theorem undefinedEntry? (parts : program.Moved address moved) :
    moved.undefinedEntry? = program.undefinedEntry? := by
  simp only [Program.undefinedEntry?, parts.entries, parts.hasSymbol]

theorem definedExternal? (parts : program.Moved address moved)
    (undefined : program.definedExternal? = none) : moved.definedExternal? = none := by
  simp only [Program.definedExternal?, List.findSome?_eq_none_iff, parts.externals,
    Option.map_eq_none_iff] at undefined ⊢
  intro declaration member
  rcases parts.symbol? declaration.name with ⟨_, absent⟩ | ⟨symbol, _, found, _, _⟩
  · exact absent
  · exact absurd (undefined declaration member) (by simp [found])

theorem ifOpen {certain : Prop} {related : α → β → Prop} {first : Except Failure α}
    {second : Except Failure β} (parts : program.Moved address moved)
    (rest : Follows certain related first second) :
    Follows certain related (program.ifOpen first) (moved.ifOpen second) := by
  unfold Program.ifOpen
  apply Follows.guarded
  · intro _ closed
    exact parts.frozen.symm.trans closed
  · intro _ _
    exact rest

end Program.Moved

namespace Program.MovedOpen

variable {address : Int} {limits : Limits} {number : Int} {program other : Program}

theorem pool {operand : Operand} (programs : program.MovedOpen address other) :
    Follows (address = 0) (Program.MovedOpen address)
      (Draft.pool limits number program operand).outcome
      (Draft.pool limits number other operand).outcome := by
  have has : ∀ value, other.hasLiteral value = program.hasLiteral value := by
    intro value
    rw [Program.hasLiteral, Program.literal?, programs.literals]
    rfl
  unfold Draft.pool
  split
  · rename_i base value form
    split
    · exact .error _ _
    · simp only [has, programs.literals]
      split
      · exact .ok programs
      · split
        · exact .ok programs
        · simp only [Traced.outcome_bind, Traced.outcome_lift, Traced.outcome_note, ok_bind,
            Traced.outcome_pure]
          have added : Follows (address = 0)
              (fun first second => first.1.MovedOpen address second.1)
              (program.addLiteral value) (other.addLiteral value) := by
            apply programs.parts.ifOpen
            rw [has]
            split
            · exact .ok programs
            · exact .ok ⟨{ programs.parts with }, by simp [programs.literals]⟩
          apply added.bind
          intro first second _ _ pooled
          exact .ok pooled
  · exact .ok programs

theorem poolAll {operands : List Operand} (programs : program.MovedOpen address other) :
    Follows (address = 0) (Program.MovedOpen address)
      (Draft.poolAll limits number program operands).outcome
      (Draft.poolAll limits number other operands).outcome := by
  induction operands generalizing program other with
  | nil => exact .ok programs
  | cons operand operands induction =>
      simp only [Draft.poolAll, Traced.outcome_bind]
      apply programs.pool.bind
      intro first second _ _ pooled
      exact induction pooled

theorem declareAll {add : Program → String → Option Int → Except Failure Program}
    (adds : ∀ program other name line, program.MovedOpen address other →
      Follows (address = 0) (Program.MovedOpen address) (add program name line)
        (add other name line))
    {operands : List Operand} (programs : program.MovedOpen address other) :
    Follows (address = 0) (Program.MovedOpen address)
      (Draft.declareAll add number program operands)
      (Draft.declareAll add number other operands) := by
  induction operands generalizing program other with
  | nil => exact .ok programs
  | cons operand operands induction =>
      apply (adds program other operand.text (some number) programs).bind
      intro first second _ _ declared
      exact induction declared

theorem addEntry (program other : Program) (name : String) (line : Option Int)
    (programs : program.MovedOpen address other) :
    Follows (address = 0) (Program.MovedOpen address) (program.addEntry name line)
      (other.addEntry name line) := by
  apply programs.parts.ifOpen
  exact .ok ⟨{ programs.parts with entries := by rw [programs.parts.entries] }, programs.literals⟩

theorem addExternal (program other : Program) (name : String) (line : Option Int)
    (programs : program.MovedOpen address other) :
    Follows (address = 0) (Program.MovedOpen address) (program.addExternal name line)
      (other.addExternal name line) := by
  apply programs.parts.ifOpen
  exact .ok
    ⟨{ programs.parts with externals := by rw [programs.parts.externals] }, programs.literals⟩

end Program.MovedOpen

theorem Literal.moved_placeFrom (address start : Int) (literals : List Literal) :
    List.Forall₂ (Literal.Moved address) (Program.placeFrom start literals)
      (Program.placeFrom (start + address) literals) := by
  induction literals generalizing start with
  | nil => exact .nil
  | cons literal literals induction =>
      have later := induction (start + 1)
      rw [Int.add_right_comm] at later
      exact .cons ⟨rfl, rfl⟩ later

theorem Program.freeze_of_valid {program : Program} (unfrozen : program.frozen = false)
    (entries : program.undefinedEntry? = none) (externals : program.definedExternal? = none)
    (first : 0 ≤ program.firstAddress ∧ program.firstAddress ≤ maxAddress)
    (exec : program.firstAddress ≤ program.execAddress ∧ program.execAddress ≤ maxAddress) :
    program.freeze = .ok { program with frozen := true } := by
  have firstInside : ¬(program.firstAddress < 0 ∨ maxAddress < program.firstAddress) := by
    omega
  have execInside : ¬(program.execAddress < program.firstAddress ∨
      maxAddress < program.execAddress) := by
    omega
  simp only [freeze, unfrozen, Bool.false_eq_true, if_false, entries, externals, firstInside,
    execInside]

namespace Draft.Moved

variable {address : Int} {limits : Limits} {draft moved : Draft} {line : SourceLine}

theorem define {value : Int} {relocatable : Bool} (drafts : draft.Moved address moved)
    (inside : MovesInside address relocatable value) :
    Follows (address = 0) (Draft.Moved address)
      (draft.define limits line value relocatable).outcome
      (moved.define limits line (movedValue address relocatable value) false).outcome := by
  unfold Draft.define
  cases line.label with
  | none => exact .ok drafts
  | some name =>
      have parts := drafts.program.parts
      simp only [parts.hasSymbol, ← parts.symbols.length_eq]
      split
      · exact .ok drafts
      · simp only [Traced.outcome_bind, Traced.outcome_lift, Traced.outcome_note, ok_bind,
          Traced.outcome_pure]
        have defined : Follows (address = 0) (Program.MovedOpen address)
            (draft.program.defineSymbol name value relocatable (some line.number))
            (moved.program.defineSymbol name (movedValue address relocatable value) false
              (some line.number)) := by
          apply parts.ifOpen
          rcases parts.symbol? name with
            ⟨absent, alsoAbsent⟩ | ⟨symbol, other, found, alsoFound, _⟩
          · simp only [absent, alsoAbsent]
            refine .ok ⟨{ parts with symbols := ?_ }, drafts.program.literals⟩
            exact List.rel_append parts.symbols
              (.cons (Symbol.moved_define inside name (some line.number)) .nil)
          · simp only [found]
            exact .error _ _
        apply defined.bind
        intro program other _ _ programs
        exact .ok ⟨programs, drafts.location, drafts.started, drafts.startedToo⟩

theorem defineHere (drafts : draft.Moved address moved)
    (inside : MovesInside address true draft.location) :
    Follows (address = 0) (Draft.Moved address) (draft.defineHere limits line).outcome
      (moved.defineHere limits line).outcome := by
  have relocatable := drafts.program.parts.relocatable
  have fixed := drafts.program.parts.fixed
  simp only [Draft.defineHere, relocatable, fixed, drafts.location]
  exact drafts.define inside

theorem append {size : Int} {located : Bool} (drafts : draft.Moved address moved) :
    Follows (address = 0) (Draft.Moved address) (draft.append line size located).outcome
      (moved.append line size located).outcome := by
  have parts := drafts.program.parts
  simp only [Draft.append, apply_ite Traced.outcome, Traced.outcome_fail]
  apply Follows.guarded
  · rintro zero ⟨nonempty, beyond⟩
    rw [drafts.location, zero, Int.add_zero] at beyond
    exact ⟨nonempty, beyond⟩
  · intro _ _
    simp only [Traced.outcome_bind, Traced.outcome_lift, Traced.outcome_pure]
    have added : Follows (address = 0) (Program.MovedOpen address)
        (draft.program.addRecord
          (line.record (if located then some draft.location else none) size))
        (moved.program.addRecord
          (line.record (if located then some moved.location else none) size)) := by
      apply parts.ifOpen
      refine .ok ⟨{ parts with records := ?_ }, drafts.program.literals⟩
      refine List.rel_append parts.records (.cons ⟨rfl, rfl, fun _ => rfl, ?_⟩ .nil)
      cases located with
      | true => simp [SourceLine.record, drafts.location]
      | false => rfl
    apply added.bind
    intro program other _ _ programs
    refine .ok ⟨programs, ?_, drafts.started, drafts.startedToo⟩
    change moved.location + size = draft.location + size + address
    rw [drafts.location]
    omega

theorem equateValue {operand : Operand} (drafts : draft.Moved address moved) :
    Follows (address = 0)
      (fun first second => second = (movedValue address first.2 first.1, false) ∧
        MovesInside address first.2 first.1)
      (draft.equateValue line operand) (moved.equateValue line operand) := by
  have parts := drafts.program.parts
  unfold Draft.equateValue
  split
  · split
    · exact .ok ⟨rfl, by intro impossible; cases impossible⟩
    · exact .error _ _
  · rcases parts.symbol? operand.text with
      ⟨absent, alsoAbsent⟩ | ⟨symbol, other, found, alsoFound, relation⟩
    · simp only [absent]
      split
      · exact .error _ _
      · exact .error _ _
    · simp only [found, alsoFound]
      exact .ok ⟨by rw [relation.signed, relation.fixed], relation.inside⟩

theorem blockWords {operand : Operand} (drafts : draft.Moved address moved) :
    Follows (address = 0) Eq (draft.blockWords line operand)
      (moved.blockWords line operand) := by
  have parts := drafts.program.parts
  unfold Draft.blockWords
  split
  · exact .same _
  · rcases parts.symbol? operand.text with
      ⟨absent, alsoAbsent⟩ | ⟨symbol, other, found, alsoFound, relation⟩
    · simp only [absent]
      exact .error _ _
    · simp only [found, alsoFound]
      cases relocatable : symbol.relocatable with
      | true => exact .error _ _
      | false =>
          have value : other.signedValue = symbol.signedValue := by
            rw [relation.signed, relocatable, movedValue]
            rfl
          rw [relation.fixed, value]
          exact .same _

theorem execAddress (drafts : draft.Moved address moved) :
    Follows (address = 0) (fun first second => address = 0 → second = first)
      (draft.execAddress line) (moved.execAddress line) := by
  have parts := drafts.program.parts
  unfold Draft.execAddress
  split
  · exact .ok fun _ => rfl
  · split
    · exact .ok fun _ => rfl
    · rename_i operand _ _ _ _
      rcases parts.symbol? operand.text with
        ⟨absent, alsoAbsent⟩ | ⟨symbol, other, found, alsoFound, relation⟩
      · simp only [absent]
        exact .error _ _
      · simp only [found, alsoFound]
        refine .ok fun zero => ?_
        rw [relation.value, zero, movedValue_zero]

theorem placeLiterals (drafts : draft.Moved address moved) :
    Follows (address = 0)
      (fun first second => first.1.MovedPlaced address second.1 ∧
        second.2 = first.2 + address)
      (draft.program.placeLiterals draft.location)
      (moved.program.placeLiterals moved.location) := by
  have parts := drafts.program.parts
  have literals := drafts.program.literals
  apply parts.ifOpen
  simp only [Program.literalsPlaced, literals, drafts.location]
  apply Follows.guarded
  · intro _ placed
    exact placed
  · intro _ _
    apply Follows.guarded
    · rintro zero ⟨nonempty, beyond⟩
      exact ⟨nonempty, by omega⟩
    · intro _ _
      refine .ok ⟨⟨{ parts with }, Literal.moved_placeFrom _ _ _⟩, ?_⟩
      change draft.location + address + _ = draft.location + _ + address
      omega

end Draft.Moved

namespace Program.MovedPlaced

variable {address : Int} {program moved : Program}

theorem ended (programs : program.MovedPlaced address moved)
    (length exec otherLength otherExec : Int) :
    Program.MovedPlaced address { program with length := length, execAddress := exec }
      { moved with length := otherLength, execAddress := otherExec } :=
  ⟨{ programs.parts with }, programs.literals⟩

theorem freeze (programs : program.MovedPlaced address moved)
    (unfrozen : program.frozen = false)
    (agrees : address = 0 → moved.execAddress = program.execAddress ∨ moved.execAddress = 0) :
    Follows (address = 0) (Program.MovedPlaced address) program.freeze moved.freeze := by
  have parts := programs.parts
  have alsoUnfrozen : moved.frozen = false := parts.frozen.trans unfrozen
  intro result outcome possible
  obtain ⟨entries, externals, low, high, rfl⟩ := Program.freeze_eq_ok unfrozen outcome
  have closed : Program.MovedPlaced address { program with frozen := true }
      { moved with frozen := true } :=
    ⟨{ parts with frozen := rfl }, programs.literals⟩
  refine ⟨{ moved with frozen := true }, ?_, closed⟩
  rcases possible with zero | ⟨other, succeeds⟩
  · apply Program.freeze_of_valid alsoUnfrozen
    · rw [parts.undefinedEntry?]
      exact entries
    · exact parts.definedExternal? externals
    · rw [parts.loadAddress, zero]
      decide
    · rw [parts.firstAddress] at low
      rw [parts.loadAddress, zero]
      rcases agrees zero with same | first
      · omega
      · rw [first]
        decide
  · obtain ⟨_, _, _, _, rfl⟩ := Program.freeze_eq_ok alsoUnfrozen succeeds
    exact succeeds

end Program.MovedPlaced

namespace Draft.Moved

variable {address : Int} {limits : Limits} {draft moved : Draft} {line : SourceLine}

theorem close {exec otherExec : Option Int} (drafts : draft.Moved address moved)
    (unfrozen : draft.program.frozen = false) (agrees : address = 0 → otherExec = exec) :
    Follows (address = 0) (Program.MovedPlaced address) (draft.close exec).outcome
      (moved.close otherExec).outcome := by
  simp only [Draft.close, Traced.outcome_bind, Traced.outcome_lift, Traced.outcome_note, ok_bind,
    Traced.outcome_pure]
  apply drafts.placeLiterals.bind
  rintro ⟨placed, after⟩ ⟨otherPlaced, otherAfter⟩ placement _ ⟨programs, _⟩
  obtain ⟨_, _, _, result⟩ := Program.placeLiterals_eq_ok placement
  have parts : placed.Moved address otherPlaced := programs.parts
  have stillOpen : placed.frozen = false := by
    rw [result]
    exact unfrozen
  have frozen := (programs.ended (after - placed.firstAddress)
    (exec.getD (if placed.relocatable then draft.location else placed.firstAddress))
    (otherAfter - otherPlaced.firstAddress)
    (otherExec.getD
      (if otherPlaced.relocatable then moved.location else otherPlaced.firstAddress))).freeze
    stillOpen (by
      intro zero
      rw [agrees zero]
      cases exec with
      | some exec => exact .inl rfl
      | none => exact .inr (by simp [parts.fixed, parts.loadAddress, zero]))
  apply frozen.bind
  intro first second _ _ closed
  exact .ok closed

theorem checkOrder (drafts : draft.Moved address moved) :
    moved.checkOrder line = draft.checkOrder line := by
  simp only [Draft.checkOrder, drafts.started, drafts.startedToo]

theorem more {first second : Traced Draft}
    (follows : Follows (address = 0) (Draft.Moved address) first.outcome second.outcome) :
    Follows (address = 0) (Progress.Moved address) (Progress.more <$> first).outcome
      (Progress.more <$> second).outcome := by
  rw [Traced.outcome_map, Traced.outcome_map]
  apply follows.map
  intro next other _ _ nexts
  exact .more nexts

theorem declaration {add : Program → String → Option Int → Except Failure Program}
    (adds : ∀ program other name line, program.MovedOpen address other →
      Follows (address = 0) (Program.MovedOpen address) (add program name line)
        (add other name line))
    (drafts : draft.Moved address moved)
    (inside : MovesInside address true draft.location) :
    Follows (address = 0) (Draft.Moved address)
      (Draft.declaration add limits draft line).outcome
      (Draft.declaration add limits moved line).outcome := by
  simp only [Draft.declaration, Traced.outcome_bind, Traced.outcome_lift]
  apply (drafts.defineHere inside).bind
  intro defined other _ _ defines
  apply (defines.program.declareAll adds).bind
  intro program otherProgram _ _ programs
  exact append ⟨programs, defines.location, defines.started, defines.startedToo⟩

theorem finish (drafts : draft.Moved address moved)
    (unfrozen : draft.program.frozen = false) :
    Follows (address = 0) (Program.MovedPlaced address) (draft.finish line).outcome
      (moved.finish line).outcome := by
  unfold Draft.finish
  cases line.label with
  | some label => exact .error _ _
  | none =>
      simp only [Traced.outcome_bind, Traced.outcome_lift]
      apply drafts.execAddress.bind
      intro exec otherExec _ _ agrees
      apply drafts.append.bind
      intro last other appended _ lasts
      have stillOpen : last.program.frozen = false := by
        rw [(append_eq_ok appended).2]
        exact unfrozen
      exact lasts.close stillOpen agrees

theorem obey {order : Directive} (drafts : draft.Moved address moved)
    (inside : MovesInside address true draft.location)
    (unfrozen : draft.program.frozen = false) (later : order ≠ .orig) :
    Follows (address = 0) (Progress.Moved address) (draft.obey limits line order).outcome
      (moved.obey limits line order).outcome := by
  cases order with
  | orig => exact absurd rfl later
  | endSegment =>
      simp only [Draft.obey, Traced.outcome_map]
      apply (drafts.finish unfrozen).map
      intro program other _ _ programs
      exact .done programs
  | equ =>
      apply more
      simp only [Draft.equate]
      cases line.label.isNone with
      | true => exact .error _ _
      | false =>
          simp only [Traced.outcome_bind, Traced.outcome_lift, Bool.false_eq_true, if_false]
          apply Follows.shared
          intro operand _
          apply drafts.equateValue.bind
          rintro ⟨value, relocatable⟩ _ _ _ ⟨result, valueInside⟩
          subst result
          apply (drafts.define valueInside).bind
          intro defined other _ _ defines
          exact defines.append
  | fill =>
      simp only [Draft.obey, Traced.outcome_bind]
      apply (drafts.defineHere inside).bind
      intro defined other _ _ defines
      exact more defines.append
  | strz =>
      apply more
      simp only [Draft.string, Traced.outcome_bind, Traced.outcome_lift]
      apply (drafts.defineHere inside).bind
      intro defined other _ _ defines
      apply Follows.shared
      intro operand _
      exact defines.append
  | blkw =>
      apply more
      simp only [Draft.block, Traced.outcome_bind, Traced.outcome_lift]
      apply Follows.shared
      intro operand _
      apply drafts.blockWords.bind
      intro words _ _ _ same
      subst same
      apply (drafts.defineHere inside).bind
      intro defined other _ _ defines
      exact defines.append
  | ent => exact more (declaration Program.MovedOpen.addEntry drafts inside)
  | ext => exact more (declaration Program.MovedOpen.addExternal drafts inside)

/-- What the first segment makes of a line, the second follows. -/
theorem accept (drafts : draft.Moved address moved)
    (inside : MovesInside address true draft.location)
    (unfrozen : draft.program.frozen = false) :
    Follows (address = 0) (Progress.Moved address) (draft.accept limits line).outcome
      (moved.accept limits line).outcome := by
  unfold Draft.accept
  split
  · exact .error _ _
  · simp only [Traced.outcome_bind, Traced.outcome_lift, drafts.checkOrder]
    apply Follows.shared
    intro _ _
    apply Follows.shared
    intro _ _
    apply Follows.shared
    intro _ _
    apply more
    simp only [Draft.instruction, Traced.outcome_bind]
    apply (drafts.defineHere inside).bind
    intro defined other _ _ defines
    apply defines.program.poolAll.bind
    intro program otherProgram _ _ programs
    exact append ⟨programs, defines.location, defines.started, defines.startedToo⟩
  · rename_i order operation
    simp only [Traced.outcome_bind, Traced.outcome_lift, drafts.checkOrder]
    apply Follows.shared
    intro _ ordered
    apply Follows.shared
    intro _ _
    apply Follows.shared
    intro _ _
    have later : order ≠ .orig := by
      intro opens
      exact (checkOrder_eq_ok ordered).mp drafts.started (by rw [operation, opens])
    exact drafts.obey inside unfrozen later

end Draft.Moved

theorem Draft.Reachable.movesInside {address : Int} {limits : Limits} {draft moved : Draft}
    (reachable : Reachable limits draft) (alsoReachable : Reachable limits moved)
    (drafts : draft.Moved address moved) : MovesInside address true draft.location := by
  have invariant := reachable.invariant
  have movedInvariant := alsoReachable.invariant
  have parts := drafts.program.parts
  intro _
  refine ⟨?_, ?_, ?_⟩
  · have ordered := invariant.laidOut.le invariant.wellFormed
    rw [parts.firstAddress] at ordered
    exact ordered
  · rw [← parts.loadAddress]
    exact movedInvariant.nonnegative
  · rw [← drafts.location]
    exact movedInvariant.bounded

-- Both runs keep their own reachability, which supplies the bounds of the
-- location counters.
theorem Draft.Moved.readLines {address : Int} {limits : Limits} {ending : Ending} {count : Nat}
    {draft moved : Draft} {lines : List String} (drafts : draft.Moved address moved)
    (reachable : Reachable limits draft) (alsoReachable : Reachable limits moved) :
    Follows (address = 0) (Program.MovedPlaced address)
      (readLines limits ending count draft lines).outcome
      (readLines limits ending count moved lines).outcome := by
  induction lines generalizing count draft moved with
  | nil => exact .error _ _
  | cons raw rest induction =>
      have inside := reachable.movesInside alsoReachable drafts
      have unfrozen := reachable.invariant.unfrozen
      have records := drafts.program.parts.records.length_eq
      simp only [Draft.readLines, ← records]
      split
      · exact induction drafts reachable alsoReachable
      · split
        · simp only [Traced.outcome_bind, Traced.outcome_note, ok_bind]
          exact drafts.close unfrozen fun _ => rfl
        · cases split : SourceLine.split limits.spareCalls (count + 1 : Nat) (Text.chomp raw) with
          | error error => exact .error _ _
          | ok line =>
              simp only [Traced.outcome_bind]
              apply (drafts.accept inside unfrozen).bind
              intro progress other accepted otherAccepted progresses
              have taken := accept_eq_ok accepted
              have otherTaken := accept_eq_ok otherAccepted
              cases progresses with
              | done programs => exact .ok programs
              | more nexts =>
                  exact induction nexts (.step reachable split taken)
                    (.step alsoReachable split otherTaken)

/-- A source whose first record opens a relocatable segment, and the same
source with a load address in that record. -/
inductive Source.Rebased (address : Int) : Source → Source → Prop where
  | intro {comments rest : List String} {text otherText : String} {ending : Ending}
      {spareCalls : Nat} {line otherLine : SourceLine} {operand : Operand} {base : Base}
      (silent : ∀ comment ∈ comments, SourceLine.isComment (Text.chomp comment) = true)
      (record : SourceLine.isComment (Text.chomp text) = false)
      (otherRecord : SourceLine.isComment (Text.chomp otherText) = false)
      (split :
        SourceLine.split spareCalls (comments.length + 1 : Nat) (Text.chomp text) = .ok line)
      (otherSplit :
        SourceLine.split spareCalls (comments.length + 1 : Nat) (Text.chomp otherText) =
          .ok otherLine)
      (opens : line.operation = .directive .orig)
      (otherOpens : otherLine.operation = .directive .orig)
      (labels : otherLine.label = line.label)
      (relocatable : line.operands = [])
      (loaded : otherLine.operands = [operand])
      (immediate : operand.form = .immediate base address) :
      Source.Rebased address { lines := comments ++ text :: rest, ending }
        { lines := comments ++ otherText :: rest, ending }

theorem Draft.readLines_comments {limits : Limits} {ending : Ending} {count : Nat}
    {draft : Draft} {comments lines : List String}
    (silent : ∀ comment ∈ comments, SourceLine.isComment (Text.chomp comment) = true) :
    readLines limits ending count draft (comments ++ lines) =
      readLines limits ending (count + comments.length) draft lines := by
  induction comments generalizing count with
  | nil => rfl
  | cons comment comments induction =>
      have first := silent comment (by simp)
      have later : readLines limits ending (count + 1) draft (comments ++ lines) =
          readLines limits ending (count + 1 + comments.length) draft lines :=
        induction fun other member => silent other (by simp [member])
      rw [List.cons_append, readLines]
      simp only [first, if_true, later, List.length_cons]
      congr 1
      omega

theorem Draft.readLines_record {limits : Limits} {ending : Ending} {count : Nat} {draft : Draft}
    {text : String} {rest : List String} {line : SourceLine}
    (record : SourceLine.isComment (Text.chomp text) = false)
    (space : ¬ limits.maxRecords ≤ draft.program.records.length)
    (split : SourceLine.split limits.spareCalls (count + 1 : Nat) (Text.chomp text) = .ok line) :
    (readLines limits ending count draft (text :: rest)).outcome =
      (draft.accept limits line).outcome >>= fun progress =>
        match progress with
        | .done program => .ok program
        | .more next => (readLines limits ending (count + 1) next rest).outcome := by
  simp only [readLines, record, Bool.false_eq_true, if_false, space, split,
    Traced.outcome_bind]
  congr 1
  funext progress
  cases progress with
  | done program => rfl
  | more next => rfl

theorem Draft.append_nothing {draft : Draft} {line : SourceLine}
    (unfrozen : draft.program.frozen = false) :
    (draft.append line 0 false).outcome = .ok (draft.extended line 0 false) := by
  simp [append, Program.addRecord, Program.ifOpen, unfrozen, extended, SourceLine.record]

/-- The first records of both segments open drafts that differ by the load
address. -/
theorem Draft.accept_opening {address : Int} {limits : Limits} {line otherLine : SourceLine}
    {operand : Operand} {base : Base} (opens : line.operation = .directive .orig)
    (otherOpens : otherLine.operation = .directive .orig)
    (numbers : otherLine.number = line.number) (labels : otherLine.label = line.label)
    (relocatable : line.operands = []) (loaded : otherLine.operands = [operand])
    (immediate : operand.form = .immediate base address) :
    Follows (address = 0) (Progress.Moved address)
      (({} : Draft).accept limits line).outcome
      (({} : Draft).accept limits otherLine).outcome := by
  have ordered : ({} : Draft).checkOrder line = .ok () := by simp [checkOrder, opens]
  have otherOrdered : ({} : Draft).checkOrder otherLine = .ok () := by
    simp [checkOrder, otherOpens]
  have counted : checkCount line Directive.orig.arity = .ok () := by
    simp [checkCount, relocatable, Directive.arity]
  have otherCounted : checkCount otherLine Directive.orig.arity = .ok () := by
    simp [checkCount, loaded, Directive.arity]
  have checked : checkKinds line .orig 0 line.operands = .ok () := by
    rw [relocatable]
    rfl
  have otherChecked : checkKinds otherLine .orig 0 otherLine.operands = .ok () := by
    simp [loaded, checkKinds, checkOperand, Operand.kind, immediate, Form.kind,
      Directive.allows, Directive.kinds]
  simp only [accept, opens, otherOpens, Traced.outcome_bind, Traced.outcome_lift, ordered,
    otherOrdered, counted, otherCounted, checked, otherChecked, ok_bind, obey]
  apply Draft.Moved.more
  unfold origin
  rw [labels]
  cases line.label with
  | none => exact .error _ _
  | some segment =>
      simp only [Traced.outcome_bind, Traced.outcome_lift, Traced.outcome_note, ok_bind]
      have loads : Follows (address = 0) (fun first second => first = none ∧ second = some address)
          (loadAddress line) (loadAddress otherLine) := by
        simp only [loadAddress, relocatable, loaded, immediate, Form.value?]
        by_cases outside : address < 0 ∨ maxAddress < address
        · intro load _ possible
          rw [if_pos outside] at possible
          rcases possible with zero | ⟨other, impossible⟩
          · exact absurd outside (by rw [zero]; decide)
          · cases impossible
        · rw [if_neg outside]
          exact .ok ⟨rfl, rfl⟩
      apply loads.bind
      rintro load otherLoad _ _ ⟨unplaced, placed⟩
      rw [unplaced, placed, append_nothing rfl, append_nothing rfl]
      have parts : Record.Moved address (line.record none 0) (otherLine.record none 0) :=
        ⟨numbers, otherOpens.trans opens.symm, fun later => absurd opens later, rfl⟩
      refine .ok ⟨⟨⟨rfl, rfl, rfl, rfl, .cons parts .nil, .nil, rfl, rfl, rfl⟩, rfl⟩, ?_, rfl, rfl⟩
      simp [extended]

namespace Source.Rebased

/-- The source at the load address is read like the relocatable one. -/
theorem read {address : Int} {limits : Limits} {source moved : Source}
    (rebased : source.Rebased address moved) (positive : limits.Positive) :
    Follows (address = 0) (Program.MovedPlaced address) (Program.read limits source).outcome
      (Program.read limits moved).outcome := by
  cases rebased with
  | intro silent record otherRecord split otherSplit opens otherOpens labels relocatable loaded
      immediate =>
      have space : ¬ limits.maxRecords ≤ 0 := Int.not_le.mpr positive.2.2
      replace split := SourceLine.split_of_split split limits.spareCalls
      replace otherSplit := SourceLine.split_of_split otherSplit limits.spareCalls
      simp only [Program.read, Draft.readLines_comments silent, Nat.zero_add]
      rw [Draft.readLines_record record space split,
        Draft.readLines_record otherRecord space otherSplit]
      have numbers := (SourceLine.split_eq_ok otherSplit).1.trans
        (SourceLine.split_eq_ok split).1.symm
      apply (Draft.accept_opening opens otherOpens numbers labels relocatable loaded
        immediate).bind
      intro progress other accepted otherAccepted progresses
      have taken := Draft.accept_eq_ok accepted
      have otherTaken := Draft.accept_eq_ok otherAccepted
      cases progresses with
      | done programs => exact .ok programs
      | more nexts =>
          exact nexts.readLines (.step .start split taken) (.step .start otherSplit otherTaken)

end Source.Rebased

end Lc3Assembler
