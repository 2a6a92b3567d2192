import Lc3Assembler.Program.Call
import Lc3Assembler.Proofs.SymbolTable

/-!
# Histories of a program store

Whatever calls are made on an empty program, in whatever order, its tables only
grow, a failed call changes nothing, and a frozen program stays as it is.  Calls in
place are first shown to do what the operations on programs do; `Program.Changes`
then says once what a call that succeeds can do, and every fact about histories
follows from it by induction.
-/

namespace Lc3Assembler.Program

/-! ## Calls in place and operations on programs -/

namespace Change

variable {program : Program}

@[simp] theorem run_pure (value : α) : (pure value : Change α).run program = .ok value program :=
  rfl

@[simp] theorem run_throw (failure : Failure) :
    (throw failure : Change α).run program = .error failure program := rfl

@[simp] theorem run_modify (change : Program → Program) :
    (modify change : Change Unit).run program = .ok () (change program) := rfl

@[simp] theorem run_get_bind (next : Program → Change β) :
    (get >>= next).run program = (next program).run program := rfl

@[simp] theorem run_throw_bind (failure : Failure) (next : α → Change β) :
    (throw failure >>= next).run program = .error failure program := rfl

@[simp] theorem run_modify_bind (change : Program → Program) (next : Unit → Change β) :
    (modify change >>= next).run program = (next ()).run (change program) := rfl

@[simp] theorem run_ite (condition : Prop) [Decidable condition] (first second : Change α) :
    (if condition then first else second).run program =
      if condition then first.run program else second.run program := by
  split
  · rfl
  · rfl

theorem run_bind_of_ok {first : Change α} {next : α → Change β} {value : α} {after : Program}
    (succeeds : first.run program = .ok value after) :
    (first >>= next).run program = (next value).run after := by
  change EStateM.bind first next program = _
  rw [EStateM.bind, show first program = _ from succeeds]
  rfl

theorem run_bind_of_error {first : Change α} {next : α → Change β} {failure : Failure}
    {after : Program} (fails : first.run program = .error failure after) :
    (first >>= next).run program = .error failure after := by
  change EStateM.bind first next program = _
  rw [EStateM.bind, show first program = _ from fails]

@[simp] theorem run_requireOpen_bind (next : Unit → Change α) :
    (requireOpen >>= next).run program =
      if program.frozen then .error (.misuse .frozen) program else (next ()).run program := by
  have outcome : requireOpen.run program =
      if program.frozen then .error (.misuse .frozen) program else .ok () program := by
    simp [requireOpen]
  cases frozen : program.frozen with
  | true =>
      rw [frozen] at outcome
      exact run_bind_of_error outcome
  | false =>
      rw [frozen] at outcome
      exact run_bind_of_ok outcome

/-- The outcome of an operation on a program, seen as a change in place: a failure
leaves the program alone. -/
def settled (program : Program) :
    Except Failure (Program × α) → EStateM.Result Failure Program α
  | .ok (next, answer) => .ok answer next
  | .error failure => .error failure program

theorem run_bind_settled {first : Change α} {outcome : Except Failure (Program × α)}
    (same : first.run program = settled program outcome) (answer : α → β) :
    (do return answer (← first) : Change β).run program =
      settled program ((fun result => (result.1, answer result.2)) <$> outcome) := by
  cases outcome with
  | ok result => exact run_bind_of_ok same
  | error failure => exact run_bind_of_error same

theorem run_bind_settled_map {first : Change α} {value : α} {outcome : Except Failure Program}
    (same : first.run program = settled program ((·, value) <$> outcome)) (answer : α → β) :
    (do return answer (← first) : Change β).run program =
      settled program ((·, answer value) <$> outcome) := by
  rw [run_bind_settled same]
  cases outcome with
  | ok next => rfl
  | error failure => rfl

theorem run_addRecord (record : Record) :
    (Change.addRecord record).run program =
      settled program ((·, ()) <$> program.addRecord record) := by
  simp only [Change.addRecord, Program.addRecord, ifOpen, run_requireOpen_bind, run_modify]
  cases program.frozen with
  | true => rfl
  | false => rfl

theorem run_addEntry (name : String) (line : Option Int) :
    (Change.addEntry name line).run program =
      settled program ((·, ()) <$> program.addEntry name line) := by
  simp only [Change.addEntry, Program.addEntry, ifOpen, run_requireOpen_bind, run_modify]
  cases program.frozen with
  | true => rfl
  | false => rfl

theorem run_addExternal (name : String) (line : Option Int) :
    (Change.addExternal name line).run program =
      settled program ((·, ()) <$> program.addExternal name line) := by
  simp only [Change.addExternal, Program.addExternal, ifOpen, run_requireOpen_bind, run_modify]
  cases program.frozen with
  | true => rfl
  | false => rfl

theorem run_defineSymbol (name : String) (value : Int) (relocatable : Bool)
    (line : Option Int) :
    (Change.defineSymbol name value relocatable line).run program =
      settled program ((·, Symbol.define name value relocatable line) <$>
        program.defineSymbol name value relocatable line) := by
  simp only [Change.defineSymbol, Program.defineSymbol, ifOpen, run_requireOpen_bind,
    run_get_bind]
  split
  · rfl
  · cases program.symbol? name with
    | some first => rfl
    | none => rfl

theorem run_addLiteral (value : Int) :
    (Change.addLiteral value).run program = settled program (program.addLiteral value) := by
  simp only [Change.addLiteral, Program.addLiteral, ifOpen, run_requireOpen_bind, run_get_bind,
    run_ite, run_modify_bind, run_pure]
  cases program.frozen with
  | true => rfl
  | false =>
      cases program.hasLiteral value with
      | true => rfl
      | false => rfl

/-- Placing one literal after the other places them all. -/
theorem run_placeEach (front rest : List Literal) (address : Int)
    (literals : program.literals = front ++ rest) :
    (placeEach front.length rest.length address).run program =
      .ok () { program with literals := front ++ placeFrom address rest } := by
  induction rest generalizing front address program with
  | nil =>
      rw [placeFrom, ← literals]
      rfl
  | cons literal rest induction =>
      -- The literal at the end of the front is the one that was placed last.
      have placed : program.literals.modify front.length (fun found => { found with address }) =
          (front ++ [{ literal with address }]) ++ rest := by
        rw [literals, List.modify_eq_take_cons_drop (by simp)]
        simp
      have further := @induction
        { program with
          literals := program.literals.modify front.length fun found => { found with address } }
        (front ++ [{ literal with address }]) (address + 1) placed
      rw [List.length_append, List.length_singleton] at further
      rw [List.length_cons, placeEach, run_modify_bind, further, placeFrom]
      simp

theorem run_placeLiterals (start : Int) :
    (Change.placeLiterals start).run program =
      settled program (program.placeLiterals start) := by
  have placed : (placeEach 0 program.literals.length start).run program =
      .ok () { program with literals := placeFrom start program.literals } :=
    run_placeEach [] program.literals start rfl
  simp only [Change.placeLiterals, Program.placeLiterals, ifOpen, run_requireOpen_bind,
    run_get_bind, run_ite, run_throw_bind, List.length_eq_zero_iff, ne_eq]
  split
  · rfl
  · split
    · rfl
    · split
      · rfl
      · exact run_bind_of_ok placed

theorem run_checkEntries (entries : List Declaration) :
    (checkEntries entries).run program =
      match entries.find? fun entry => !program.hasSymbol entry.name with
      | some entry =>
          .error
            (.rejected
              { cause :=
                  .undefinedSymbol entry.name (some ".ENT names a symbol that is never defined")
                line := entry.line })
            program
      | none => .ok () program := by
  induction entries with
  | nil => rfl
  | cons entry rest induction =>
      rw [checkEntries, run_get_bind, List.find?_cons]
      cases program.hasSymbol entry.name with
      | true => exact induction
      | false => rfl

theorem run_checkExternals (externals : List Declaration) :
    (checkExternals externals).run program =
      match externals.findSome? fun external =>
          (program.symbol? external.name).map fun symbol => (external, symbol) with
      | some (external, symbol) =>
          .error
            (.rejected
              { cause := .duplicateSymbol external.name symbol.line, line := external.line })
            program
      | none => .ok () program := by
  induction externals with
  | nil => rfl
  | cons external rest induction =>
      rw [checkExternals, run_get_bind, List.findSome?_cons]
      cases program.symbol? external.name with
      | some symbol => rfl
      | none => exact induction

theorem run_checkAddresses :
    checkAddresses.run program =
      if program.firstAddress < 0 ∨ maxAddress < program.firstAddress then
        .error (.rejected { cause := .firstAddress program.firstAddress, line := none }) program
      else if program.execAddress < program.firstAddress ∨ maxAddress < program.execAddress then
        .error
          (.rejected
            { cause := .execAddress program.execAddress program.firstAddress, line := none })
          program
      else .ok () program := by
  simp only [checkAddresses, run_get_bind, run_ite, run_throw_bind, run_throw, run_pure]

theorem run_freeze :
    Change.freeze.run program = settled program ((·, ()) <$> program.freeze) := by
  have entries := @run_checkEntries program program.entries
  have externals := @run_checkExternals program program.externals
  have addresses := @run_checkAddresses program
  rw [← undefinedEntry?] at entries
  rw [← definedExternal?] at externals
  simp only [Change.freeze, Program.freeze, run_get_bind, run_ite, run_pure]
  split
  · rfl
  · cases undefined : program.undefinedEntry? with
    | some entry =>
        rw [undefined] at entries
        exact run_bind_of_error entries
    | none =>
        rw [undefined] at entries
        rw [run_bind_of_ok entries, run_get_bind]
        cases defined : program.definedExternal? with
        | some external =>
            rw [defined] at externals
            exact run_bind_of_error externals
        | none =>
            rw [defined] at externals
            rw [run_bind_of_ok externals]
            split at addresses
            · rename_i outside
              simp only [if_pos outside]
              exact run_bind_of_error addresses
            · rename_i inside
              simp only [if_neg inside]
              split at addresses
              · rename_i apart
                simp only [if_pos apart]
                exact run_bind_of_error addresses
              · rename_i within
                simp only [if_neg within]
                exact run_bind_of_ok addresses

end Change

/-- What a call amounts to as an operation on the program. -/
def Call.result (program : Program) : Call → Except Failure (Program × Answer)
  | .addRecord record => (·, .done) <$> program.addRecord record
  | .defineSymbol name value relocatable line =>
      (·, .symbol (.define name value relocatable line)) <$>
        program.defineSymbol name value relocatable line
  | .addEntry name line => (·, .done) <$> program.addEntry name line
  | .addExternal name line => (·, .done) <$> program.addExternal name line
  | .addLiteral value =>
      (fun added => (added.1, .isNew added.2)) <$> program.addLiteral value
  | .placeLiterals start =>
      (fun placed => (placed.1, .address placed.2)) <$> program.placeLiterals start
  | .freeze => (·, .done) <$> program.freeze

theorem run_change (program : Program) (call : Call) :
    call.change.run program = Change.settled program (call.result program) := by
  cases call with
  | addRecord record =>
      exact Change.run_bind_settled_map (Change.run_addRecord record) fun _ => Answer.done
  | defineSymbol name value relocatable line =>
      exact Change.run_bind_settled_map (Change.run_defineSymbol name value relocatable line)
        Answer.symbol
  | addEntry name line =>
      exact Change.run_bind_settled_map (Change.run_addEntry name line) fun _ => Answer.done
  | addExternal name line =>
      exact Change.run_bind_settled_map (Change.run_addExternal name line) fun _ => Answer.done
  | addLiteral value => exact Change.run_bind_settled (Change.run_addLiteral value) Answer.isNew
  | placeLiterals start =>
      exact Change.run_bind_settled (Change.run_placeLiterals start) Answer.address
  | freeze => exact Change.run_bind_settled_map Change.run_freeze fun _ => Answer.done

/-- A call in place does what the operation on the program does, and leaves the
program alone if that fails. -/
theorem perform_eq (program : Program) (call : Call) :
    program.perform call =
      match call.result program with
      | .ok (next, answer) => (next, .ok answer)
      | .error failure => (program, .error failure) := by
  rw [perform, run_change]
  cases call.result program with
  | ok result => rfl
  | error failure => rfl

/-! ## What one call does -/

/-- What a call that succeeds does to an open program. -/
inductive Adds (program : Program) : Call → Program → Prop where
  | record {record : Record} :
      Adds program (.addRecord record)
        { program with records := program.records ++ [record] }
  | symbol {name : String} {value : Int} {relocatable : Bool} {line : Option Int}
      (new : program.symbol? name = none) :
      Adds program (.defineSymbol name value relocatable line)
        { program with
          symbols := program.symbols ++ [Symbol.define name value relocatable line] }
  | entry {name : String} {line : Option Int} :
      Adds program (.addEntry name line)
        { program with entries := declare program.entries name line }
  | external {name : String} {line : Option Int} :
      Adds program (.addExternal name line)
        { program with externals := declare program.externals name line }
  | pooled {value : Int} (known : program.hasLiteral value = true) :
      Adds program (.addLiteral value) program
  | literal {value : Int} (new : program.hasLiteral value = false) :
      Adds program (.addLiteral value)
        { program with
          literals :=
            program.literals ++ [{ word := wordOf value, address := Literal.unplaced }] }
  | placed {start : Int} (unplaced : program.literalsPlaced = false) :
      Adds program (.placeLiterals start)
        { program with literals := placeFrom start program.literals }
  | closed (entries : program.undefinedEntry? = none)
      (externals : program.definedExternal? = none) :
      Adds program .freeze { program with frozen := true }

/-- What a call that succeeds does to a program. -/
inductive Changes (program : Program) : Call → Program → Prop where
  | opened {call : Call} {next : Program} (unfrozen : program.frozen = false)
      (adds : Adds program call next) : Changes program call next
  | again (frozen : program.frozen = true) : Changes program .freeze program

theorem ifOpen_eq_ok {program : Program} {change : Except Failure α} {value : α}
    (outcome : program.ifOpen change = .ok value) :
    program.frozen = false ∧ change = .ok value := by
  rw [ifOpen] at outcome
  split at outcome
  · cases outcome
  · rename_i unfrozen
    exact ⟨by simpa using unfrozen, outcome⟩

theorem changes_of_result {program next : Program} {call : Call} {answer : Answer}
    (outcome : call.result program = .ok (next, answer)) : Changes program call next := by
  cases call with
  | addRecord record =>
      obtain ⟨added, change, result⟩ := map_eq_ok_iff.mp outcome
      obtain ⟨unfrozen, same⟩ := ifOpen_eq_ok change
      cases same
      cases result
      exact .opened unfrozen .record
  | defineSymbol name value relocatable line =>
      obtain ⟨added, change, result⟩ := map_eq_ok_iff.mp outcome
      obtain ⟨unfrozen, same⟩ := ifOpen_eq_ok change
      cases known : program.symbol? name with
      | some first =>
          rw [known] at same
          cases same
      | none =>
          rw [known] at same
          cases same
          cases result
          exact .opened unfrozen (.symbol known)
  | addEntry name line =>
      obtain ⟨added, change, result⟩ := map_eq_ok_iff.mp outcome
      obtain ⟨unfrozen, same⟩ := ifOpen_eq_ok change
      cases same
      cases result
      exact .opened unfrozen .entry
  | addExternal name line =>
      obtain ⟨added, change, result⟩ := map_eq_ok_iff.mp outcome
      obtain ⟨unfrozen, same⟩ := ifOpen_eq_ok change
      cases same
      cases result
      exact .opened unfrozen .external
  | addLiteral value =>
      obtain ⟨added, change, result⟩ := map_eq_ok_iff.mp outcome
      obtain ⟨unfrozen, same⟩ := ifOpen_eq_ok change
      cases known : program.hasLiteral value with
      | true =>
          rw [known] at same
          cases same
          cases result
          exact .opened unfrozen (.pooled known)
      | false =>
          rw [known] at same
          cases same
          cases result
          exact .opened unfrozen (.literal known)
  | placeLiterals start =>
      obtain ⟨⟨added, after⟩, change, result⟩ := map_eq_ok_iff.mp outcome
      cases result
      have unplaced : program.literalsPlaced = false := by
        obtain ⟨_, same⟩ := ifOpen_eq_ok change
        cases placed : program.literalsPlaced with
        | true =>
            rw [placed] at same
            cases same
        | false => rfl
      obtain ⟨unfrozen, _, _, rfl⟩ := placeLiterals_eq_ok change
      exact .opened unfrozen (.placed unplaced)
  | freeze =>
      obtain ⟨added, change, result⟩ := map_eq_ok_iff.mp outcome
      cases result
      cases frozen : program.frozen with
      | true =>
          rw [Program.freeze, if_pos frozen] at change
          cases change
          exact .again frozen
      | false =>
          obtain ⟨entries, externals, _, _, rfl⟩ := freeze_eq_ok frozen change
          exact .opened frozen (.closed entries externals)

/-- A call fails and changes nothing, or succeeds. -/
theorem perform_cases (program : Program) (call : Call) :
    (∃ failure, program.perform call = (program, .error failure)) ∨
      ∃ next answer, program.perform call = (next, .ok answer) ∧ Changes program call next := by
  rw [perform_eq]
  cases outcome : call.result program with
  | error failure => exact .inl ⟨failure, rfl⟩
  | ok result =>
      obtain ⟨next, answer⟩ := result
      exact .inr ⟨next, answer, rfl, changes_of_result outcome⟩

/-- The tables of a program and of one it has grown into.  Every entry stands where
it stood, a declared name keeps its line, and the address of a literal that is
placed stays the same. -/
structure Extends (before after : Program) : Prop where
  records : before.records <+: after.records
  symbols : before.symbols <+: after.symbols
  words : before.literals.map Literal.word <+: after.literals.map Literal.word
  entries : before.entries <+: after.entries
  externals : before.externals <+: after.externals
  addresses : ∀ value address, before.literalAddress value = .ok address →
    address ≠ Literal.unplaced → after.literalAddress value = .ok address

namespace Extends

theorem refl (program : Program) : program.Extends program where
  records := List.prefix_rfl
  symbols := List.prefix_rfl
  words := List.prefix_rfl
  entries := List.prefix_rfl
  externals := List.prefix_rfl
  addresses := fun _ _ found _ => found

theorem trans {first second third : Program} (start : first.Extends second)
    (further : second.Extends third) : first.Extends third where
  records := start.records.trans further.records
  symbols := start.symbols.trans further.symbols
  words := start.words.trans further.words
  entries := start.entries.trans further.entries
  externals := start.externals.trans further.externals
  addresses := fun value address found placed =>
    further.addresses value address (start.addresses value address found placed) placed

end Extends

theorem declare_prefix (declarations : List Declaration) (name : String) (line : Option Int) :
    declarations <+: declare declarations name line := by
  rw [declare]
  split
  · exact List.prefix_rfl
  · exact List.prefix_append _ _

theorem literalAddress_eq_ok {program : Program} {value address : Int} :
    program.literalAddress value = .ok address ↔
      ∃ literal, program.literal? value = some literal ∧ literal.address = address := by
  rw [literalAddress]
  cases program.literal? value with
  | none => simp
  | some literal => simp

/-- A pool with a placed literal counts as placed. -/
theorem literalsPlaced_of_address {program : Program} {value address : Int}
    (found : program.literalAddress value = .ok address) (placed : address ≠ Literal.unplaced) :
    program.literalsPlaced = true := by
  obtain ⟨literal, present, rfl⟩ := literalAddress_eq_ok.mp found
  rw [literalsPlaced, List.any_eq_true]
  exact ⟨literal, List.mem_of_find?_eq_some present, by simpa [Literal.isPlaced] using placed⟩

theorem Adds.grows {program next : Program} {call : Call} (adds : Adds program call next) :
    program.Extends next := by
  have same := Extends.refl program
  cases adds with
  | record => exact { same with records := List.prefix_append _ _ }
  | symbol _ => exact { same with symbols := List.prefix_append _ _ }
  | entry => exact { same with entries := declare_prefix _ _ _ }
  | external => exact { same with externals := declare_prefix _ _ _ }
  | pooled _ => exact same
  | literal _ =>
      refine { same with words := ?_, addresses := ?_ }
      · rw [List.map_append]
        exact List.prefix_append _ _
      · intro other address found _
        obtain ⟨literal, present, rfl⟩ := literalAddress_eq_ok.mp found
        rw [literal?] at present
        refine literalAddress_eq_ok.mpr ⟨literal, ?_, rfl⟩
        rw [literal?, List.find?_append, present]
        rfl
  | placed unplaced =>
      refine { same with words := ?_, addresses := ?_ }
      · rw [map_word_placeFrom]
      · intro other address found placed
        rw [literalsPlaced_of_address found placed] at unplaced
        cases unplaced
  | closed _ _ => exact { same with }

/-- Tables without repeated keys, and with words as keys and values. -/
structure Consistent (program : Program) : Prop where
  symbols : (program.symbols.map Symbol.name).Nodup
  literals : (program.literals.map Literal.word).Nodup
  entries : (program.entries.map Declaration.name).Nodup
  externals : (program.externals.map Declaration.name).Nodup
  values : ∀ symbol ∈ program.symbols, symbol.value < 0x10000
  words : ∀ word ∈ program.literals.map Literal.word, word < 0x10000

theorem nodup_declare {declarations : List Declaration}
    (distinct : (declarations.map Declaration.name).Nodup) (name : String) (line : Option Int) :
    ((declare declarations name line).map Declaration.name).Nodup := by
  rw [declare]
  split
  · exact distinct
  · rename_i new
    rw [List.map_append, List.map_singleton, ← List.concat_eq_append]
    refine distinct.concat ?_
    simpa using new

theorem Adds.consistent {program next : Program} {call : Call}
    (adds : Adds program call next) (consistent : program.Consistent) :
    next.Consistent := by
  cases adds with
  | record => exact { consistent with }
  | symbol new =>
      refine { consistent with symbols := ?_, values := ?_ }
      · rw [List.map_append, List.map_singleton, ← List.concat_eq_append]
        exact consistent.symbols.concat (symbol?_eq_none_iff.mp new)
      · intro symbol member
        rcases List.mem_append.mp member with old | added
        · exact consistent.values symbol old
        · rw [List.mem_singleton.mp added]
          exact Symbol.value_define_lt _ _ _ _
  | entry => exact { consistent with entries := nodup_declare consistent.entries _ _ }
  | external => exact { consistent with externals := nodup_declare consistent.externals _ _ }
  | pooled _ => exact consistent
  | @literal value new =>
      have absent : wordOf value ∉ program.literals.map Literal.word := by
        rw [← hasLiteral_iff, new]
        decide
      refine { consistent with literals := ?_, words := ?_ }
      · rw [List.map_append, List.map_singleton, ← List.concat_eq_append]
        exact consistent.literals.concat absent
      · intro word member
        rw [List.map_append] at member
        rcases List.mem_append.mp member with old | added
        · exact consistent.words word old
        · rw [List.mem_singleton.mp added]
          exact wordOf_lt value
  | placed _ =>
      refine { consistent with literals := ?_, words := ?_ }
      · rw [map_word_placeFrom]
        exact consistent.literals
      · rw [map_word_placeFrom]
        exact consistent.words
  | closed _ _ => exact { consistent with }

/-! ## Histories -/

/-- Those of some calls that succeed when all are made one after the other. -/
def succeeded (program : Program) : List Call → List Call
  | [] => []
  | call :: rest =>
      if (program.perform call).2.isOk then call :: (program.perform call).1.succeeded rest
      else (program.perform call).1.succeeded rest

theorem ofCalls_append (calls later : List Call) :
    ofCalls (calls ++ later) = (ofCalls calls).performAll later := by
  rw [ofCalls, ofCalls, performAll, List.foldl_append]
  rfl

/-- What holds of a program and the calls that succeeded on it, and is kept by every
further call that succeeds, holds after every history. -/
theorem performAll_invariant {motive : List Call → Program → Prop}
    (step : ∀ made program call next, motive made program → Changes program call next →
      motive (made ++ [call]) next)
    (made : List Call) {program : Program} (start : motive made program) (calls : List Call) :
    motive (made ++ program.succeeded calls) (program.performAll calls) := by
  induction calls generalizing made program with
  | nil => simpa [succeeded, performAll] using start
  | cons call rest induction =>
      rw [succeeded, performAll, List.foldl_cons]
      rcases perform_cases program call with ⟨failure, failed⟩ | ⟨next, answer, succeeds, changes⟩
      · rw [failed]
        exact induction made start
      · rw [succeeds]
        have further := induction (made ++ [call]) (step _ _ _ _ start changes)
        rw [List.append_assoc, List.singleton_append] at further
        exact further

theorem performAll_grows (program : Program) (calls : List Call) :
    program.Extends (program.performAll calls) := by
  refine performAll_invariant (motive := fun _ => program.Extends) ?_ [] (.refl program) calls
  intro made current call next grown changes
  cases changes with
  | opened _ adds => exact grown.trans adds.grows
  | again _ => exact grown

theorem consistent_ofCalls (calls : List Call) : (ofCalls calls).Consistent := by
  refine performAll_invariant (motive := fun _ => Consistent) ?_ [] ?_ calls
  · intro made program call next consistent changes
    cases changes with
    | opened _ adds => exact adds.consistent consistent
    | again _ => exact consistent
  · constructor <;> simp

theorem performAll_of_frozen {program : Program} (frozen : program.frozen = true)
    (calls : List Call) : program.performAll calls = program := by
  refine performAll_invariant (motive := fun _ current => current = program) ?_ [] rfl calls
  rintro made _ call next rfl changes
  cases changes with
  | opened unfrozen _ => simp [frozen] at unfrozen
  | again _ => rfl

/-- Every entry is defined here, and no external name is. -/
structure Linkable (program : Program) : Prop where
  entries : ∀ entry ∈ program.entries, program.hasSymbol entry.name = true
  externals : ∀ external ∈ program.externals, program.hasSymbol external.name = false

theorem linkable_of_checks {program : Program} (entries : program.undefinedEntry? = none)
    (externals : program.definedExternal? = none) : program.Linkable := by
  constructor
  · simpa [ undefinedEntry?, List.find?_eq_none] using entries
  · simpa [definedExternal?, hasSymbol] using externals

theorem linkable_ofCalls (calls : List Call) (frozen : (ofCalls calls).frozen = true) :
    (ofCalls calls).Linkable := by
  refine performAll_invariant
    (motive := fun _ program => program.frozen = true → program.Linkable) ?_ [] ?_ calls frozen
  · intro made program call next closed changes frozenNext
    cases changes with
    | again frozen => exact closed frozen
    | opened unfrozen adds =>
        cases adds with
        | closed entries externals =>
            obtain ⟨defined, undefined⟩ := linkable_of_checks entries externals
            exact ⟨defined, undefined⟩
        | _ => simp [unfrozen] at frozenNext
  · intro impossible
    cases impossible

/-- The declarations that a table of names is made of, each with the line of the
first of some declarations of its name. -/
structure FirstDeclared (declared table : List Declaration) : Prop where
  first : ∀ declaration ∈ table,
    declared.find? (fun other => other.name == declaration.name) = some declaration
  complete : ∀ declaration ∈ declared, declaration.name ∈ table.map Declaration.name

theorem FirstDeclared.add {declared table : List Declaration}
    (firsts : FirstDeclared declared table) (added : Declaration) :
    FirstDeclared (declared ++ [added]) (declare table added.name added.line) := by
  have kept : ∀ declaration ∈ table,
      (declared ++ [added]).find? (fun other => other.name == declaration.name) =
        some declaration := by
    intro declaration member
    rw [List.find?_append, firsts.first declaration member]
    rfl
  rw [declare]
  split
  · rename_i known
    refine ⟨kept, ?_⟩
    intro declaration member
    rcases List.mem_append.mp member with old | new
    · exact firsts.complete declaration old
    · rw [List.mem_singleton.mp new]
      simpa using known
  · rename_i unknown
    have absent : declared.find? (fun other => other.name == added.name) = none := by
      rw [List.find?_eq_none]
      intro other member same
      have present := firsts.complete other member
      rw [beq_iff_eq.mp same] at present
      exact unknown (by simpa using present)
    constructor
    · intro declaration member
      rcases List.mem_append.mp member with old | new
      · exact kept declaration old
      · obtain rfl := List.mem_singleton.mp new
        rw [List.find?_append, absent]
        simp
    · intro declaration member
      rw [List.map_append]
      rcases List.mem_append.mp member with old | new
      · exact List.mem_append_left _ (firsts.complete declaration old)
      · rw [List.mem_singleton.mp new]
        exact List.mem_append_right _ (List.mem_singleton_self _)

/-- What a call declares as an entry. -/
def Call.entry? : Call → Option Declaration
  | .addEntry name line => some { name, line }
  | _ => none

/-- What a call declares as external. -/
def Call.external? : Call → Option Declaration
  | .addExternal name line => some { name, line }
  | _ => none

/-- A table that takes what some calls declare, and nothing else. -/
theorem firstDeclared_ofCalls (declares : Call → Option Declaration)
    (table : Program → List Declaration) (empty : table {} = [])
    (step : ∀ program call next, Changes program call next →
      table next = (declares call).elim (table program)
        fun added => declare (table program) added.name added.line)
    (calls : List Call) :
    FirstDeclared ((succeeded {} calls).filterMap declares) (table (ofCalls calls)) := by
  refine performAll_invariant
    (motive := fun made program => FirstDeclared (made.filterMap declares) (table program))
    ?_ [] ?_ calls
  · intro made program call next firsts changes
    rw [List.filterMap_append, step program call next changes, List.filterMap_cons,
      List.filterMap_nil]
    cases declares call with
    | none => simpa using firsts
    | some added => exact firsts.add added
  · rw [empty]
    constructor <;> simp

theorem firstEntries_ofCalls (calls : List Call) :
    FirstDeclared ((succeeded {} calls).filterMap Call.entry?) (ofCalls calls).entries := by
  refine firstDeclared_ofCalls Call.entry? entries rfl ?_ calls
  intro program call next changes
  cases changes with
  | again _ => rfl
  | opened _ adds => cases adds <;> rfl

theorem firstExternals_ofCalls (calls : List Call) :
    FirstDeclared ((succeeded {} calls).filterMap Call.external?)
      (ofCalls calls).externals := by
  refine firstDeclared_ofCalls Call.external? externals rfl ?_ calls
  intro program call next changes
  cases changes with
  | again _ => rfl
  | opened _ adds => cases adds <;> rfl

theorem wordOf_eq_iff (value other : Int) :
    wordOf value = wordOf other ↔ value % wordCount = other % wordCount := by
  simp only [wordOf, wordCount]
  omega

/-- The pool holds the words of the values that were pooled. -/
theorem hasLiteral_ofCalls (calls : List Call) (value : Int) :
    (ofCalls calls).hasLiteral value = true ↔
      ∃ earlier, .addLiteral earlier ∈ succeeded {} calls ∧
        earlier % wordCount = value % wordCount := by
  simp only [← wordOf_eq_iff, hasLiteral_iff]
  refine performAll_invariant
    (motive := fun made program =>
      wordOf value ∈ program.literals.map Literal.word ↔
        ∃ earlier, .addLiteral earlier ∈ made ∧ wordOf earlier = wordOf value) ?_ [] ?_ calls
  · intro made program call next pooled changes
    simp only [List.mem_append, List.mem_singleton, or_and_right, exists_or, ← pooled]
    cases changes with
    | again _ => simp
    | opened _ adds =>
        cases adds with
        | @pooled earlier known =>
            rw [hasLiteral_iff] at known
            have present (same : wordOf earlier = wordOf value) :
                wordOf value ∈ program.literals.map Literal.word := same ▸ known
            simpa using present
        | @literal earlier _ =>
            simp [eq_comm]
        | placed _ => simp
        | _ => simp
  · simp

/-- What holds of the program that some calls make of an empty one, of each further
call, and of all further calls together. -/
structure AppendOnly (calls : List Call) : Prop where
  /-- A call that fails changes nothing. -/
  atomic : ∀ call failure, ((ofCalls calls).perform call).2 = .error failure →
    ((ofCalls calls).perform call).1 = ofCalls calls
  grows : ∀ later, (ofCalls calls).Extends (ofCalls (calls ++ later))
  consistent : (ofCalls calls).Consistent
  entries : FirstDeclared ((succeeded {} calls).filterMap Call.entry?) (ofCalls calls).entries
  externals : FirstDeclared ((succeeded {} calls).filterMap Call.external?)
    (ofCalls calls).externals
  literals : ∀ value, (ofCalls calls).hasLiteral value = true ↔
    ∃ earlier, .addLiteral earlier ∈ succeeded {} calls ∧
      earlier % wordCount = value % wordCount
  frozen : (ofCalls calls).frozen = true → ∀ later, ofCalls (calls ++ later) = ofCalls calls
  linkable : (ofCalls calls).frozen = true → (ofCalls calls).Linkable

/-- Every history of calls appends, and fails without a trace. -/
theorem ofCalls_appendOnly (calls : List Call) : AppendOnly calls where
  atomic := by
    intro call failure failed
    rcases perform_cases (ofCalls calls) call with ⟨_, outcome⟩ | ⟨next, answer, outcome, _⟩
    · rw [outcome]
    · rw [outcome] at failed
      cases failed
  grows := by
    intro later
    rw [ofCalls_append]
    exact performAll_grows _ later
  consistent := consistent_ofCalls calls
  entries := firstEntries_ofCalls calls
  externals := firstExternals_ofCalls calls
  literals := hasLiteral_ofCalls calls
  frozen := by
    intro frozen later
    rw [ofCalls_append]
    exact performAll_of_frozen frozen later
  linkable := linkable_ofCalls calls

/-- A pool placed at the number that stands for no address can be placed again. -/
example :
    (ofCalls [.addLiteral 7, .placeLiterals (-1), .placeLiterals 5, .placeLiterals 9]).literals =
      [{ word := 7, address := 5 }] := by decide

end Lc3Assembler.Program
