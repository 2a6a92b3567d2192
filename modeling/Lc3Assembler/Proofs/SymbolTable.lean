import Lc3Assembler.Proofs.Runs

/-!
# The symbol table of a program

The table holds the labels of the records in their order, except that of the
opening record and those that were dropped with a warning.  `Program.Names` says
which symbol a record gives its label, and `Program.SymbolTable` what the table
as a whole satisfies; every accepted line keeps it.
-/

namespace Lc3Assembler

/-- The lines whose label was dropped because the table was full. -/
def droppedLines (warnings : List Diagnostic) : List Int :=
  warnings.filterMap fun warning =>
    if warning.code = .symbolTableFull then warning.line else none

@[simp] theorem droppedLines_append (first second : List Diagnostic) :
    droppedLines (first ++ second) = droppedLines first ++ droppedLines second :=
  List.filterMap_append

theorem droppedLines_of_code {warnings : List Diagnostic}
    (other : ∀ warning ∈ warnings, warning.code ≠ .symbolTableFull) :
    droppedLines warnings = [] := by
  rw [droppedLines, List.filterMap_eq_nil_iff]
  intro warning member
  rw [if_neg (other warning member)]

theorem droppedLines_symbolTableFull (limit : Int) (name : String) (number : Int) :
    droppedLines [.symbolTableFull limit name number] = [number] := rfl

/-- The name that a record enters into the table. -/
def Record.definedName? (dropped : List Int) (record : Record) : Option String :=
  if record.operation = .directive .orig ∨ record.line ∈ dropped then none else record.label

namespace Program

/-- The address of a record: behind the storage of the records before it. -/
def addressAt (program : Program) (index : Nat) : Int :=
  program.firstAddress + ((program.records.take index).map Record.size).sum

/-- The symbol that the record at some index gives its label. -/
inductive Names (dropped : List Int) (program : Program) (index : Nat) (record : Record)
    (symbol : Symbol) : Prop where
  | address (operation : record.operation ≠ .directive .equ)
      (value : (symbol.value : Int) = program.addressAt index)
      (nonnegative : symbol.negative = false)
      (relocatable : symbol.relocatable = program.relocatable)
  | immediate {operand : Operand} {base : Base} {value : Int}
      (operation : record.operation = .directive .equ)
      (operands : record.operands = [operand])
      (form : operand.form = .immediate base value)
      (absolute : symbol.relocatable = false)
      (signed : symbol.signedValue = value)
  | equated {operand : Operand} {position : Nat} {earlier : Record} {target : Symbol}
      (operation : record.operation = .directive .equ)
      (operands : record.operands = [operand])
      (form : operand.form = .symbol)
      (before : position < index)
      (found : program.records[position]? = some earlier)
      (defines : earlier.definedName? dropped = some operand.text)
      (named : program.symbol? operand.text = some target)
      (value : symbol.value = target.value)
      (signed : symbol.signedValue = target.signedValue)
      (relocatable : symbol.relocatable = target.relocatable)

/-- What the symbol table of a program satisfies, given the lines whose labels
were dropped. -/
structure SymbolTable (limits : Limits) (dropped : List Int) (program : Program) : Prop where
  names : program.symbols.map Symbol.name =
    program.records.filterMap (Record.definedName? dropped)
  distinct : (program.symbols.map Symbol.name).Nodup
  bounded : (program.symbols.length : Int) ≤ limits.maxSymbols
  /-- A label is dropped only when the records before it fill the table. -/
  full : ∀ index record, program.records[index]? = some record → record.line ∈ dropped →
    (((program.records.take index).filterMap (Record.definedName? dropped)).length : Int) =
      limits.maxSymbols
  values : ∀ index record name, program.records[index]? = some record →
    record.definedName? dropped = some name →
      ∃ symbol, program.symbol? name = some symbol ∧ program.Names dropped index record symbol
  words : ∀ symbol ∈ program.symbols, symbol.value ≤ 0xFFFF

/-- A program with one more record, whose label may have been entered. -/
structure Grows (dropped noted : List Int) (record : Record) (added : List Symbol)
    (program grown : Program) : Prop where
  records : grown.records = program.records ++ [record]
  symbols : grown.symbols = program.symbols ++ added
  firstAddress : grown.firstAddress = program.firstAddress
  relocatable : grown.relocatable = program.relocatable
  own : ∀ number ∈ noted, number = record.line
  fresh : record.line ∉ dropped
  later : ∀ other ∈ program.records, other.line ≠ record.line

namespace Names

theorem transfer {dropped all : List Int} {program other : Program} {index : Nat}
    {record : Record} {symbol : Symbol} (names : program.Names dropped index record symbol)
    (address : other.addressAt index = program.addressAt index)
    (relocatable : other.relocatable = program.relocatable)
    (records : ∀ position earlier, position < index →
      program.records[position]? = some earlier →
        other.records[position]? = some earlier ∧
          earlier.definedName? all = earlier.definedName? dropped)
    (symbols : ∀ name target, program.symbol? name = some target →
      other.symbol? name = some target) :
    other.Names all index record symbol := by
  cases names with
  | address operation value nonnegative same =>
      exact .address operation (value.trans address.symm) nonnegative
        (same.trans relocatable.symm)
  | immediate operation operands form absolute signed =>
      exact .immediate operation operands form absolute signed
  | equated operation operands form before found defines named value signed same =>
      obtain ⟨still, name⟩ := records _ _ before found
      exact .equated operation operands form before still (name.trans defines)
        (symbols _ _ named) value signed same

end Names

namespace Grows

variable {dropped noted : List Int} {record : Record} {added : List Symbol}
  {program grown : Program}

theorem definedName?_old (grows : program.Grows dropped noted record added grown)
    {other : Record} (member : other ∈ program.records) :
    other.definedName? (dropped ++ noted) = other.definedName? dropped := by
  have apart : other.line ∉ noted := by
    intro noticed
    exact grows.later other member (grows.own _ noticed)
  simp [Record.definedName?, apart]

theorem symbol?_old (grows : program.Grows dropped noted record added grown) {name : String}
    {symbol : Symbol} (found : program.symbol? name = some symbol) :
    grown.symbol? name = some symbol := by
  unfold symbol? at found ⊢
  rw [grows.symbols, List.find?_append, found, Option.some_or]

theorem take_old (grows : program.Grows dropped noted record added grown) {index : Nat}
    (inside : index ≤ program.records.length) :
    grown.records.take index = program.records.take index := by
  rw [grows.records, List.take_append_of_le_length inside]

theorem addressAt_old (grows : program.Grows dropped noted record added grown) {index : Nat}
    (inside : index ≤ program.records.length) :
    grown.addressAt index = program.addressAt index := by
  rw [addressAt, addressAt, grows.firstAddress, grows.take_old inside]

theorem filterMap_old (grows : program.Grows dropped noted record added grown) (index : Nat) :
    (program.records.take index).filterMap (Record.definedName? (dropped ++ noted)) =
      (program.records.take index).filterMap (Record.definedName? dropped) := by
  apply List.filterMap_congr
  intro other member
  exact grows.definedName?_old (List.mem_of_mem_take member)

/-- A record of the grown program is an old one or the new one. -/
theorem getElem? (grows : program.Grows dropped noted record added grown) {index : Nat}
    {other : Record} (found : grown.records[index]? = some other) :
    (index < program.records.length ∧ program.records[index]? = some other) ∨
      (index = program.records.length ∧ other = record) := by
  rw [grows.records] at found
  rcases Nat.lt_trichotomy index program.records.length with old | new | beyond
  · rw [List.getElem?_append_left old] at found
    exact .inl ⟨old, found⟩
  · subst new
    simp at found
    exact .inr ⟨rfl, found.symm⟩
  · rw [List.getElem?_eq_none (by simp; omega)] at found
    cases found

theorem names_old (grows : program.Grows dropped noted record added grown) {index : Nat}
    {other : Record} {symbol : Symbol} (inside : index < program.records.length)
    (names : program.Names dropped index other symbol) :
    grown.Names (dropped ++ noted) index other symbol := by
  apply names.transfer (grows.addressAt_old (Nat.le_of_lt inside)) grows.relocatable
  · intro position earlier before found
    constructor
    · rw [grows.records, List.getElem?_append_left (by omega)]
      exact found
    · exact grows.definedName?_old (List.mem_of_getElem? found)
  · intro name target found
    exact grows.symbol?_old found

end Grows

theorem symbol?_eq_none_iff {program : Program} {name : String} :
    program.symbol? name = none ↔ name ∉ program.symbols.map Symbol.name := by
  simp [symbol?, List.find?_eq_none]

namespace SymbolTable

variable {limits : Limits} {dropped noted : List Int} {record : Record} {added : List Symbol}
  {program grown : Program}

/-- The table of a grown program, from what is new in it. -/
theorem grow (table : program.SymbolTable limits dropped)
    (grows : program.Grows dropped noted record added grown)
    (named : added.map Symbol.name = (record.definedName? (dropped ++ noted)).toList)
    (new : ∀ symbol ∈ added, program.symbol? symbol.name = none)
    (bounded : (grown.symbols.length : Int) ≤ limits.maxSymbols)
    (full : record.line ∈ noted → (program.symbols.length : Int) = limits.maxSymbols)
    (valued : ∀ symbol ∈ added,
      grown.Names (dropped ++ noted) program.records.length record symbol)
    (words : ∀ symbol ∈ added, symbol.value ≤ 0xFFFF) :
    grown.SymbolTable limits (dropped ++ noted) := by
  have old := grows.filterMap_old program.records.length
  rw [List.take_length] at old
  constructor
  · rw [grows.symbols, grows.records, List.map_append, List.filterMap_append, old, table.names,
      named, List.filterMap_cons, List.filterMap_nil]
    cases record.definedName? (dropped ++ noted) <;> rfl
  · rw [grows.symbols, List.map_append]
    refine List.nodup_append.mpr ⟨table.distinct, ?_, ?_⟩
    · rw [named]
      cases record.definedName? (dropped ++ noted) <;> simp
    · intro name member other otherMember same
      obtain ⟨symbol, symbolMember, rfl⟩ := List.mem_map.mp otherMember
      exact symbol?_eq_none_iff.mp (new symbol symbolMember) (same ▸ member)
  · exact bounded
  · intro index other found line
    rcases grows.getElem? found with ⟨inside, before⟩ | ⟨rfl, rfl⟩
    · have earlier : other.line ∈ dropped := by
        rcases List.mem_append.mp line with already | noticed
        · exact already
        · exact absurd (grows.own _ noticed)
            (grows.later other (List.mem_of_getElem? before))
      rw [grows.take_old (Nat.le_of_lt inside), grows.filterMap_old]
      exact table.full index other before earlier
    · have noticed : other.line ∈ noted :=
        (List.mem_append.mp line).resolve_left grows.fresh
      rw [grows.take_old (Nat.le_refl _), grows.filterMap_old, List.take_length, ← table.names,
        List.length_map]
      exact full noticed
  · intro index other name found defines
    rcases grows.getElem? found with ⟨inside, before⟩ | ⟨rfl, rfl⟩
    · rw [grows.definedName?_old (List.mem_of_getElem? before)] at defines
      obtain ⟨symbol, entered, names⟩ := table.values index other name before defines
      exact ⟨symbol, grows.symbol?_old entered, grows.names_old inside names⟩
    · rw [defines, Option.toList_some] at named
      obtain ⟨symbol, rfl, rfl⟩ := List.map_eq_singleton_iff.mp named
      have absent := new symbol (by simp)
      refine ⟨symbol, ?_, valued symbol (by simp)⟩
      unfold symbol? at absent ⊢
      rw [grows.symbols, List.find?_append, absent]
      simp
  · intro symbol member
    rw [grows.symbols] at member
    rcases List.mem_append.mp member with already | entered
    · exact table.words symbol already
    · exact words symbol entered

theorem of_unnamed (space : 0 ≤ limits.maxSymbols) (symbols : program.symbols = [])
    (unnamed : ∀ record ∈ program.records, record.definedName? dropped = none)
    (kept : ∀ record ∈ program.records, record.line ∉ dropped) :
    program.SymbolTable limits dropped := by
  constructor
  · rw [symbols, List.map_nil, List.filterMap_eq_nil_iff.mpr unnamed]
  · simp [symbols]
  · simpa [symbols] using space
  · intro index record found line
    exact absurd line (kept record (List.mem_of_getElem? found))
  · intro index record name found defines
    rw [unnamed record (List.mem_of_getElem? found)] at defines
    cases defines
  · simp [symbols]

/-- A defined name stands on a record. -/
theorem record_of_symbol? (table : program.SymbolTable limits dropped) {name : String}
    {symbol : Symbol} (found : program.symbol? name = some symbol) :
    ∃ position earlier, position < program.records.length ∧
      program.records[position]? = some earlier ∧ earlier.definedName? dropped = some name := by
  have same : symbol.name = name := by
    simpa using List.find?_some found
  have member : name ∈ program.records.filterMap (Record.definedName? dropped) := by
    rw [← table.names, ← same]
    exact List.mem_map_of_mem (List.mem_of_find?_eq_some found)
  obtain ⟨earlier, inside, defines⟩ := List.mem_filterMap.mp member
  obtain ⟨position, bound, found⟩ := List.getElem_of_mem inside
  exact ⟨position, earlier, bound, by rw [List.getElem?_eq_getElem bound, found], defines⟩

end SymbolTable

end Program

namespace Symbol

theorem signedValue_define {name : String} {value : Int} {relocatable : Bool}
    {line : Option Int} (low : -0x10000 ≤ value) (high : value ≤ 0xFFFF) :
    (define name value relocatable line).signedValue = value := by
  simp only [signedValue, define, wordOf, wordCount, decide_eq_true_eq]
  split
  · omega
  · omega

theorem value_define {name : String} {value : Int} {relocatable : Bool} {line : Option Int}
    (low : 0 ≤ value) (high : value ≤ 0xFFFF) :
    ((define name value relocatable line).value : Int) = value := by
  simp only [define, wordOf, wordCount]
  omega

theorem signedValue_mem {symbol : Symbol} (word : symbol.value ≤ 0xFFFF) :
    -0x10000 ≤ symbol.signedValue ∧ symbol.signedValue ≤ 0xFFFF := by
  simp only [signedValue, wordCount]
  split
  · omega
  · omega

/-- The signed value keeps the word. -/
theorem wordOf_signedValue {symbol : Symbol} (word : symbol.value ≤ 0xFFFF) :
    wordOf symbol.signedValue = symbol.value := by
  simp only [signedValue, wordOf, wordCount]
  split
  · omega
  · omega

end Symbol

namespace Draft

/-- Before its record is appended, a line changes the symbols by its label only. -/
theorem Prepares.labels {limits : Limits} {draft prepared : Draft} {line : SourceLine}
    {size : Int} {located : Bool} {uses : List Nat}
    (prepares : Prepares limits draft line prepared size located)
    (pools : Pools limits uses draft.program.literals) :
    ∃ value relocatable defined,
      Evaluates draft line value relocatable ∧
      (draft.define limits line value relocatable).outcome = .ok defined ∧
      prepared.program.symbols = defined.program.symbols := by
  have here {defined : Draft} (other : line.operation ≠ .directive .equ)
      (labelled : (draft.defineHere limits line).outcome = .ok defined)
      (same : prepared.program.symbols = defined.program.symbols) :
      ∃ value relocatable defined,
        Evaluates draft line value relocatable ∧
        (draft.define limits line value relocatable).outcome = .ok defined ∧
        prepared.program.symbols = defined.program.symbols :=
    ⟨_, _, defined, .here other, labelled, same⟩
  cases prepares with
  | equate operation first evaluated labelled =>
      exact ⟨_, _, prepared, .equate operation first evaluated, labelled, rfl⟩
  | fill operation labelled => exact here (by simp [operation]) labelled rfl
  | string operation _ labelled => exact here (by simp [operation]) labelled rfl
  | block operation _ _ labelled => exact here (by simp [operation]) labelled rfl
  | entry operation labelled declared =>
      refine here (by simp [operation]) labelled ?_
      rw [declareAll_eq_ok declares_addEntry declared]
  | external operation labelled declared =>
      refine here (by simp [operation]) labelled ?_
      rw [declareAll_eq_ok declares_addExternal declared]
  | last operation unlabelled =>
      refine here (by simp [operation]) ?_ rfl
      simp [defineHere, define, unlabelled]
  | instruction operation labelled pooled =>
      refine here (by simp [operation]) labelled ?_
      rw [← (define_frame labelled).2] at pools
      rw [(poolAll_eq_ok pools pooled).1]

theorem Prepares.operation_ne_orig {limits : Limits} {draft prepared : Draft}
    {line : SourceLine} {size : Int} {located : Bool}
    (prepares : Prepares limits draft line prepared size located) :
    line.operation ≠ .directive .orig := by
  cases prepares <;> simp [*]

theorem equateValue_eq_ok {draft : Draft} {line : SourceLine} {operand : Operand} {value : Int}
    {relocatable : Bool} (allowed : Directive.equ.allows operand.kind = true)
    (evaluated : draft.equateValue line operand = .ok (value, relocatable)) :
    (∃ base, operand.form = .immediate base value ∧ fitsWord value = true ∧
      relocatable = false) ∨
    (operand.form = .symbol ∧ ∃ target, draft.program.symbol? operand.text = some target ∧
      value = target.signedValue ∧ relocatable = target.relocatable) := by
  unfold equateValue at evaluated
  split at evaluated
  · rename_i base _ form
    split at evaluated
    · rename_i fits
      cases evaluated
      exact .inl ⟨base, form, fits, rfl⟩
    · cases evaluated
  · rename_i other
    have form : operand.form = .symbol := by
      cases shape : operand.form with
      | symbol => rfl
      | immediate base value => exact absurd shape (other base value)
      | register _ | literal _ _ | string | malformed =>
          simp [Operand.kind, shape, Form.kind, Directive.allows, Directive.kinds] at allowed
    split at evaluated
    · rename_i target found
      cases evaluated
      exact .inr ⟨form, target, found, rfl, rfl⟩
    · split at evaluated <;> cases evaluated

/-- What the label of a line names, once its record stands behind the others. -/
theorem Evaluates.names {limits : Limits} {dropped noted : List Int} {draft : Draft}
    {line : SourceLine} {value : Int} {relocatable : Bool} {name : String} {grown : Program}
    {location : Option Int} {size : Int} {added : List Symbol}
    (evaluates : Evaluates draft line value relocatable)
    (invariant : draft.Invariant limits) (table : draft.program.SymbolTable limits dropped)
    (accepted : line.operation.Accepts line.operands)
    (grows : draft.program.Grows dropped noted (line.record location size) added grown) :
    grown.Names (dropped ++ noted) draft.program.records.length (line.record location size)
      (Symbol.define name value relocatable (some line.number)) := by
  cases evaluates with
  | here other =>
      have low : 0 ≤ draft.location :=
        Int.le_trans invariant.nonnegative (invariant.laidOut.le invariant.wellFormed)
      refine .address other ?_ ?_ grows.relocatable.symm
      · rw [Symbol.value_define low invariant.bounded, grows.addressAt_old (Nat.le_refl _),
          Program.addressAt, List.take_length]
        exact invariant.laidOut.after_eq
      · simpa [Symbol.define] using low
  | @equate operand _ _ equates first evaluated =>
      rw [equates] at accepted
      have operands := firstOperand_single accepted.2.1 first
      have allowed := accepted.2.2 operand (by simp [operands])
      rcases equateValue_eq_ok allowed evaluated with
        ⟨base, form, fits, rfl⟩ | ⟨form, target, found, rfl, rfl⟩
      · simp only [fitsWord, Bool.and_eq_true, decide_eq_true_eq] at fits
        exact .immediate equates operands form rfl
          (Symbol.signedValue_define (by omega) fits.2)
      · have word := table.words target (List.mem_of_find?_eq_some found)
        obtain ⟨low, high⟩ := Symbol.signedValue_mem word
        obtain ⟨position, earlier, before, stands, defines⟩ := table.record_of_symbol? found
        have still : grown.records[position]? = some earlier := by
          rw [grows.records, List.getElem?_append_left before]
          exact stands
        rw [← grows.definedName?_old (List.mem_of_getElem? stands)] at defines
        exact .equated equates operands form before still defines (grows.symbol?_old found)
          (Symbol.wordOf_signedValue word) (Symbol.signedValue_define low high) rfl

/-- The table of the records so far, all of which are on the lines so far. -/
structure TableSoFar (limits : Limits) (count : Nat) (warnings : List Diagnostic)
    (draft : Draft) : Prop where
  table : draft.program.SymbolTable limits (droppedLines warnings)
  lines : ∀ record ∈ draft.program.records, record.line ≤ count
  dropped : ∀ number ∈ droppedLines warnings, number ≤ count

theorem Labels.noted_line {limits : Limits} {draft defined : Draft} {line : SourceLine}
    {value : Int} {relocatable : Bool} {noted : List Diagnostic}
    (labels : Labels limits draft line value relocatable noted defined) :
    ∀ number ∈ droppedLines noted, number = line.number := by
  cases labels with
  | unlabelled _ => simp [droppedLines]
  | dropped _ _ _ =>
      rw [droppedLines_symbolTableFull]
      simp
  | entered _ _ _ => simp [droppedLines]

/-- A record whose label was defined keeps the table. -/
theorem Labels.table {limits : Limits} {dropped : List Int} {draft defined : Draft}
    {line : SourceLine} {value : Int} {relocatable : Bool} {noted : List Diagnostic}
    {grown : Program} {location : Option Int} {size : Int}
    (labels : Labels limits draft line value relocatable noted defined)
    (evaluates : Evaluates draft line value relocatable)
    (invariant : draft.Invariant limits) (table : draft.program.SymbolTable limits dropped)
    (accepted : line.operation.Accepts line.operands)
    (follows : line.operation ≠ .directive .orig) (fresh : line.number ∉ dropped)
    (later : ∀ other ∈ draft.program.records, other.line ≠ line.number)
    (records : grown.records = draft.program.records ++ [line.record location size])
    (symbols : grown.symbols = defined.program.symbols)
    (firstAddress : grown.firstAddress = draft.program.firstAddress)
    (moves : grown.relocatable = draft.program.relocatable) :
    grown.SymbolTable limits (dropped ++ droppedLines noted) := by
  have grows {added : List Symbol} (more : grown.symbols = draft.program.symbols ++ added) :
      draft.program.Grows dropped (droppedLines noted) (line.record location size) added grown :=
    ⟨records, more, firstAddress, moves, labels.noted_line, fresh, later⟩
  have bounded := table.bounded
  cases labels with
  | unlabelled label =>
      rw [← List.append_nil draft.program.symbols] at symbols
      refine table.grow (grows symbols) ?_ (by simp) ?_ ?_ (by simp) (by simp)
      · simp [Record.definedName?, SourceLine.record, label]
      · simpa [symbols] using bounded
      · simp [droppedLines]
  | dropped label _ full =>
      rw [← List.append_nil draft.program.symbols] at symbols
      refine table.grow (grows symbols) ?_ (by simp) ?_ ?_ (by simp) (by simp)
      · simp [Record.definedName?, SourceLine.record, droppedLines_symbolTableFull]
      · simpa [symbols] using bounded
      · intro _
        omega
  | entered label new space =>
      refine table.grow (grows symbols) ?_ ?_ ?_ ?_ ?_ ?_
      · simp [Record.definedName?, SourceLine.record, label, follows, fresh,
          droppedLines, Symbol.define]
      · simpa [Symbol.define] using new
      · simp only [symbols, List.length_append, List.length_singleton]
        omega
      · simp [droppedLines]
      · intro symbol member
        rw [List.mem_singleton.mp member]
        exact evaluates.names invariant table accepted (grows symbols)
      · intro symbol member
        rw [List.mem_singleton.mp member]
        exact Nat.le_of_lt_succ (Symbol.value_define_lt _ _ _ _)

/-- Every accepted line keeps the table of the records so far. -/
theorem TableSoFar.record {limits : Limits} {count : Nat} {warnings : List Diagnostic}
    {draft next : Draft} {line : SourceLine} {text : String} {progress : Progress}
    (sofar : TableSoFar limits count warnings draft) (reachable : Reachable limits draft)
    (split : SourceLine.split limits.spareCalls (count + 1 : Nat) text = .ok line)
    (outcome : (draft.accept limits line).outcome = .ok progress)
    (taken : Takes limits draft line next) :
    TableSoFar limits (count + 1) (warnings ++ (draft.accept limits line).warnings) next := by
  have invariant := reachable.invariant
  have number : line.number = (count + 1 : Nat) := (SourceLine.split_eq_ok split).1
  have fresh : line.number ∉ droppedLines warnings := by
    intro member
    have before := sofar.dropped _ member
    omega
  have later : ∀ other ∈ draft.program.records, other.line ≠ line.number := by
    intro other member
    have before := sofar.lines other member
    omega
  have lines : ∀ record ∈ next.program.records, record.line ≤ (count + 1 : Nat) := by
    obtain ⟨location, size, records⟩ := taken.records invariant
    rw [records]
    intro record member
    rcases List.mem_append.mp member with old | new
    · have before := sofar.lines record old
      omega
    · rw [List.mem_singleton.mp new]
      exact Int.le_of_eq number
  cases taken with
  | first unstarted operation _ _ _ =>
      rw [warnings_accept_orig operation, List.append_nil]
      cases invariant.unstarted unstarted
      refine ⟨.of_unnamed sofar.table.bounded rfl ?_ ?_, lines, ?_⟩
      · simp [extended, opened, Record.definedName?, SourceLine.record, operation]
      · simpa [extended, opened, SourceLine.record] using fresh
      · intro dropped member
        have before := sofar.dropped dropped member
        omega
  | @later prepared size located started accepted prepares _ =>
      obtain ⟨frame, _⟩ := prepares.frame_and_pools accepted invariant.pools
      obtain ⟨value, relocatable, defined, evaluates, labelled, symbols⟩ :=
        prepares.labels invariant.pools
      have labels := define_labels labelled
      obtain ⟨pooled, noted, literals⟩ := accept_noted outcome started evaluates
      have silent : droppedLines pooled = [] := by
        apply droppedLines_of_code
        intro warning member
        rw [(literals warning member).code]
        decide
      rw [noted]
      constructor
      · rw [droppedLines_append, droppedLines_append, silent, List.append_nil]
        have records : (prepared.extended line size located).program.records =
            draft.program.records ++
              [line.record (if located then some prepared.location else none) size] := by
          rw [← frame.records]
          rfl
        exact labels.table evaluates invariant sofar.table accepted prepares.operation_ne_orig
          fresh later records symbols frame.firstAddress frame.relocatable
      · exact lines
      · rw [droppedLines_append, droppedLines_append, silent, List.append_nil]
        intro dropped member
        rcases List.mem_append.mp member with old | new
        · have before := sofar.dropped dropped old
          omega
        · rw [labels.noted_line dropped new]
          exact Int.le_of_eq number

theorem tableSoFar_inductive {limits : Limits} (space : 0 < limits.maxSymbols) :
    Inductive limits (TableSoFar limits) where
  start := ⟨.of_unnamed (Int.le_of_lt space) rfl (by simp) (by simp), by simp, by
    simp [droppedLines]⟩
  comment := by
    intro count warnings draft sofar
    refine ⟨sofar.table, ?_, ?_⟩
    · intro record member
      have before := sofar.lines record member
      omega
    · intro dropped member
      have before := sofar.dropped dropped member
      omega
  record := by
    intro count warnings draft next line text progress reachable sofar split outcome taken
    exact sofar.record reachable split outcome taken

end Draft

/-- Every program that is read has the symbols that its records name. -/
theorem Program.read_symbolTable {limits : Limits} {source : Source} {program : Program}
    (space : 0 < limits.maxSymbols)
    (outcome : (Program.read limits source).outcome = .ok program) :
    program.SymbolTable limits (droppedLines (warningsOf (Program.read limits source).events)) := by
  obtain ⟨count, warnings, last, exec, sofar, closed, noted⟩ :=
    read_invariant (Draft.tableSoFar_inductive space) outcome
  have dropped : droppedLines (warningsOf (Program.read limits source).events) =
      droppedLines warnings := by
    rcases noted with same | ceiling
    · exact congrArg droppedLines same
    · refine (congrArg droppedLines ceiling).trans ?_
      rw [droppedLines_append]
      exact List.append_nil _
  obtain ⟨_, _, _, result⟩ := Draft.close_eq_ok closed
  have table := sofar.table
  rw [dropped, result]
  refine ⟨table.names, table.distinct, table.bounded, table.full, ?_, table.words⟩
  intro index record name found defines
  obtain ⟨symbol, entered, names⟩ := table.values index record name found defines
  exact ⟨symbol, entered, names.transfer rfl rfl (fun _ _ _ stands => ⟨stands, rfl⟩)
    fun _ _ named => named⟩

/-- Equates and data under three symbols at most, so that the last label is dropped. -/
def crowdedTable : Source :=
  .ofLines
    ["CROWD    .ORIG   x3000",
      "NEG      .EQU    #-2",
      "TWIN     .EQU    NEG",
      "HERE     .FILL   TWIN",
      "LOST     .FILL   x1",
      "         .END"]

theorem crowdedTable_symbolTable :
    ∃ program,
      (Program.read { maxSymbols := 3 } crowdedTable).outcome = .ok program ∧
      program.symbols.map (fun symbol => (symbol.name, symbol.signedValue)) =
        [("NEG", -2), ("TWIN", -2), ("HERE", 0x3000)] ∧
      program.SymbolTable { maxSymbols := 3 } [5] := by
  have succeeds : (Program.read { maxSymbols := 3 } crowdedTable).outcome.isOk = true := by
    decide +kernel
  obtain ⟨program, outcome⟩ := exists_eq_ok succeeds
  have named : (Program.read { maxSymbols := 3 } crowdedTable).outcome.toOption.map
      (·.symbols.map fun symbol => (symbol.name, symbol.signedValue)) =
      some [("NEG", -2), ("TWIN", -2), ("HERE", 0x3000)] := by decide +kernel
  have dropped : droppedLines
      (warningsOf (Program.read { maxSymbols := 3 } crowdedTable).events) = [5] := by
    decide +kernel
  rw [outcome] at named
  refine ⟨program, outcome, Option.some.inj named, ?_⟩
  rw [← dropped]
  exact Program.read_symbolTable (by decide) outcome

end Lc3Assembler
