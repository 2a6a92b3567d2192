import Lc3Assembler.Proofs.Drafts

/-!
# The words of an output

An output is seen here as the list of the words it puts into memory.  It is cut
into the words of one record after the other and those of the literal pool, and
`Program.Denotes` states what an operand stands for without the checks of its
resolution.
-/

namespace Lc3Assembler

/-- One word of an object file, with its address and its relocation. -/
structure StoredWord where
  address : Int
  contents : Nat
  relocation : Relocation
  deriving DecidableEq, Repr

/-- The word that a record of an object file stores. -/
def ObjectRecord.storedWord? : ObjectRecord → Option StoredWord
  | .word address contents relocation => some { address, contents, relocation }
  | _ => none

/-- The words of an object file, in order. -/
def Output.words (output : Output) : List StoredWord :=
  output.object.filterMap ObjectRecord.storedWord?

/-- Words that are stored one after the other and stay as they are. -/
def StoredWord.run (start : Int) (contents : List Nat) : List StoredWord :=
  List.zipWith (fun address word => { address, contents := word, relocation := .fixed })
    (addressesFrom start contents.length) contents

namespace StoredWord

theorem run_cons (start : Int) (word : Nat) (contents : List Nat) :
    run start (word :: contents) =
      { address := start, contents := word, relocation := .fixed } ::
        run (start + 1) contents := by
  rw [run, List.length_cons, addressesFrom_succ]
  rfl

theorem map_address_run (start : Int) (contents : List Nat) :
    (run start contents).map address = addressesFrom start contents.length := by
  induction contents generalizing start with
  | nil => rfl
  | cons word contents induction =>
      rw [run_cons, List.map_cons, induction, List.length_cons, addressesFrom_succ]

end StoredWord

@[simp] theorem Output.words_append (first second : Output) :
    (first.append second).words = first.words ++ second.words := by
  simp [words, append]

theorem exists_right_of_forall₂ {related : α → β → Prop} {left : List α} {right : List β}
    (pairs : List.Forall₂ related left right) {item : α} (member : item ∈ left) :
    ∃ other ∈ right, related item other := by
  induction pairs with
  | nil => cases member
  | cons head _ induction =>
      rcases List.mem_cons.mp member with first | later
      · exact ⟨_, List.mem_cons_self, first ▸ head⟩
      · obtain ⟨other, otherMember, pair⟩ := induction later
        exact ⟨other, List.mem_cons_of_mem _ otherMember, pair⟩

namespace Program

/-- What an operand stands for inside its segment. -/
inductive Denotes (program : Program) (operand : Operand) : Int → Prop where
  | register {number : Nat} :
      operand.form = .register number → Denotes program operand number
  | immediate {base : Base} {value : Int} :
      operand.form = .immediate base value → Denotes program operand value
  | literal {base : Base} {value : Int} {literal : Literal} :
      operand.form = .literal base value → program.literal? value = some literal →
      Denotes program operand literal.address
  | symbol {symbol : Symbol} :
      operand.form = .symbol → program.symbol? operand.text = some symbol →
      Denotes program operand symbol.value

/-- An operand that another segment defines. -/
def DenotesExternal (program : Program) (operand : Operand) : Prop :=
  operand.form = .symbol ∧ program.symbol? operand.text = none ∧
    program.isExternal operand.text = true

theorem resolve_eq_value_iff {program : Program} {line value : Int} {operand : Operand} :
    program.resolve line operand = .ok (.value value) ↔ program.Denotes operand value := by
  constructor
  · intro resolved
    unfold resolve at resolved
    split at resolved
    · rename_i number form
      cases resolved
      exact .register form
    · rename_i base immediate form
      cases resolved
      exact .immediate form
    · rename_i base literal form
      split at resolved
      · rename_i pooled found
        cases resolved
        exact .literal form found
      · cases resolved
    · rename_i form
      split at resolved
      · rename_i symbol found
        cases resolved
        exact .symbol form found
      · split at resolved
        · cases resolved
        · cases resolved
    · cases resolved
    · cases resolved
  · intro denotes
    cases denotes with
    | register form => simp [resolve, form]
    | immediate form => simp [resolve, form]
    | literal form found => simp [resolve, form, found]
    | symbol form found => simp [resolve, form, found]

theorem resolve_eq_external_iff {program : Program} {line : Int} {operand : Operand} :
    program.resolve line operand = .ok .external ↔ program.DenotesExternal operand := by
  constructor
  · intro resolved
    unfold resolve at resolved
    split at resolved
    · cases resolved
    · cases resolved
    · split at resolved
      · cases resolved
      · cases resolved
    · rename_i form
      split at resolved
      · cases resolved
      · rename_i absent
        split at resolved
        · rename_i external
          exact ⟨form, absent, external⟩
        · cases resolved
    · cases resolved
    · cases resolved
  · rintro ⟨form, absent, external⟩
    simp [resolve, form, absent, external]

theorem words_encodeEntries {program : Program} {declarations : List Declaration}
    {entries : List ObjectRecord}
    (outcome : program.encodeEntries declarations = .ok entries) :
    entries.filterMap ObjectRecord.storedWord? = [] := by
  induction declarations generalizing entries with
  | nil =>
      cases outcome
      rfl
  | cons declaration declarations induction =>
      simp only [encodeEntries, encodeEntry, bind_eq_ok_iff, pure_eq_ok,
        Except.ok.injEq] at outcome
      obtain ⟨first, ⟨symbol, _, rfl⟩, others, tail, rfl⟩ := outcome
      simpa [ObjectRecord.storedWord?] using induction tail

theorem encodeRecords_eq_ok {program : Program} {records : List Record} {body : Output}
    (outcome : program.encodeRecords records = .ok body) :
    ∃ outputs,
      List.Forall₂ (fun record output => program.encodeRecord record = .ok output)
        records outputs ∧
      body.words = outputs.flatMap Output.words := by
  induction records generalizing body with
  | nil =>
      cases outcome
      exact ⟨[], .nil, rfl⟩
  | cons record records induction =>
      simp only [encodeRecords, bind_eq_ok_iff, pure_eq_ok, Except.ok.injEq] at outcome
      obtain ⟨first, head, others, tail, rfl⟩ := outcome
      obtain ⟨outputs, encoded, words⟩ := induction tail
      exact ⟨first :: outputs, .cons head encoded, by simp [words]⟩

theorem words_encodePool (literals : List Literal) (start : Int)
    (placed : literals.map Literal.address = addressesFrom start literals.length) :
    (encodePool literals).words = StoredWord.run start (literals.map Literal.word) := by
  induction literals generalizing start with
  | nil => rfl
  | cons literal literals induction =>
      rw [List.map_cons, List.length_cons, addressesFrom_succ] at placed
      obtain ⟨here, later⟩ := List.cons.inj placed
      rw [List.map_cons, StoredWord.run_cons, ← induction (start + 1) later, ← here]
      rfl

/-- Only the records of the body store words. -/
theorem words_encoded {program : Program} {declarations : List Declaration}
    {entries : List ObjectRecord} {names : List Declaration} {first last : ObjectRecord}
    {stored : Output} (declared : program.encodeEntries declarations = .ok entries)
    (silent : first.storedWord? = none ∧ last.storedWord? = none) :
    Output.words
        { object :=
            first :: entries ++ names.map (fun declaration => .external declaration.name)
              ++ stored.object ++ [last]
          listing := stored.listing } = stored.words := by
  have silentEntries := words_encodeEntries declared
  have silentNames :
      (names.map fun declaration =>
        ObjectRecord.external declaration.name).filterMap ObjectRecord.storedWord? = [] := by
    rw [List.filterMap_map]
    simp [Function.comp_def, ObjectRecord.storedWord?]
  simp [Output.words, silentEntries, silentNames, silent.1, silent.2]

/-- The words of an encoded program: those of its records, then the pool. -/
theorem encode_eq_ok {limits : Limits} {program : Program} {output : Output}
    (assembled : program.Assembled limits) (outcome : program.encode = .ok output) :
    ∃ outputs,
      List.Forall₂ (fun record output => program.encodeRecord record = .ok output)
        program.records outputs ∧
      output.words = outputs.flatMap Output.words ++
        StoredWord.run program.poolStart (program.literals.map Literal.word) := by
  simp only [encode, assembled.frozen, Bool.not_true, Bool.false_eq_true, if_false,
    bind_eq_ok_iff, pure_eq_ok, Except.ok.injEq] at outcome
  obtain ⟨entries, declared, body, encoded, rfl⟩ := outcome
  obtain ⟨outputs, each, words⟩ := encodeRecords_eq_ok encoded
  refine ⟨outputs, each, ?_⟩
  rw [words_encoded declared ⟨rfl, rfl⟩, Output.words_append, words,
    words_encodePool _ _ assembled.addresses]

end Program

end Lc3Assembler
