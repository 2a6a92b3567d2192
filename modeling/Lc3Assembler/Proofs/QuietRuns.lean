import Lc3Assembler.Proofs.Warnings

/-!
# Runs that fill no table

A run that warns of no full table is the same under limits that leave the
tables more room.  `Traced.Repeated` says so of one computation, with a rule for
each way of composing computations.
-/

namespace Lc3Assembler

/-- Limits on the same host with the same record ceiling that leave the tables as much room or
more. -/
structure Limits.Roomier (limits other : Limits) : Prop where
  records : other.maxRecords = limits.maxRecords
  host : other.spareCalls = limits.spareCalls
  symbols : limits.maxSymbols ≤ other.maxSymbols
  literals : limits.maxLiterals ≤ other.maxLiterals

/-- A warning that is not about a full table. -/
def Diagnostic.Quiet (warning : Diagnostic) : Prop :=
  warning.code ≠ .symbolTableFull ∧ warning.code ≠ .literalPoolFull

namespace Traced

/-- The second computation is the first one as long as no table is full. -/
def Repeated (first second : Traced α) : Prop :=
  first.Warns Diagnostic.Quiet → second = first

theorem repeated_refl (run : Traced α) : Repeated run run := fun _ => rfl

theorem Repeated.bind {first second : Traced α} {next otherNext : α → Traced β}
    (heads : Repeated first second) (tails : ∀ value, Repeated (next value) (otherNext value)) :
    Repeated (first >>= next) (second >>= otherNext) := by
  intro quiet
  obtain ⟨head, tail⟩ := warns_bind_iff.mp quiet
  rw [heads head]
  obtain ⟨events, outcome⟩ := first
  cases outcome with
  | error failure => rfl
  | ok value =>
      change Traced.mk (events ++ _) _ = Traced.mk (events ++ _) _
      rw [tails value (tail value rfl)]

/-- Both computations start with the same one. -/
theorem Repeated.shared {run : Traced α} {next otherNext : α → Traced β}
    (tails : ∀ value, Repeated (next value) (otherNext value)) :
    Repeated (run >>= next) (run >>= otherNext) :=
  (repeated_refl run).bind tails

theorem Repeated.map {first second : Traced α} (change : α → β)
    (repeated : Repeated first second) : Repeated (change <$> first) (change <$> second) := by
  intro quiet
  rw [repeated]
  rw [Warns, warnings_map] at quiet
  exact quiet

end Traced

namespace Draft

variable {limits other : Limits}

theorem define_repeated (roomier : limits.Roomier other) (draft : Draft) (line : SourceLine)
    (value : Int) (relocatable : Bool) :
    Traced.Repeated (draft.define limits line value relocatable)
      (draft.define other line value relocatable) := by
  intro quiet
  unfold define at quiet ⊢
  cases label : line.label with
  | none => rfl
  | some name =>
      simp only [label] at quiet ⊢
      split at quiet
      · have silent := quiet (.symbolTableFull limits.maxSymbols name line.number)
          (List.mem_singleton.mpr rfl)
        exact absurd rfl silent.1
      · rename_i space
        have room : ¬((!draft.program.hasSymbol name &&
            decide (other.maxSymbols ≤ draft.program.symbols.length)) = true) := by
          simp only [Bool.and_eq_true, decide_eq_true_eq] at space ⊢
          rintro ⟨new, full⟩
          exact space ⟨new, Int.le_trans roomier.symbols full⟩
        rw [if_neg room, if_neg space]

theorem pool_repeated (roomier : limits.Roomier other) (number : Int) (program : Program)
    (operand : Operand) :
    Traced.Repeated (pool limits number program operand) (pool other number program operand) := by
  intro quiet
  unfold pool at quiet ⊢
  split
  · rename_i form
    simp only [form] at quiet
    split
    · rfl
    · split
      · rfl
      · rename_i fits absent
        rw [if_neg fits, if_neg absent] at quiet
        split at quiet
        · have silent := quiet (.literalPoolFull limits.maxLiterals operand.text number)
            (List.mem_singleton.mpr rfl)
          exact absurd rfl silent.2
        · rename_i space
          have room : ¬ other.maxLiterals ≤ program.literals.length :=
            fun full => space (Int.le_trans roomier.literals full)
          rw [if_neg room, if_neg space]
  · rfl

theorem poolAll_repeated (roomier : limits.Roomier other) (number : Int) (program : Program)
    (operands : List Operand) :
    Traced.Repeated (poolAll limits number program operands)
      (poolAll other number program operands) := by
  induction operands generalizing program with
  | nil => exact Traced.repeated_refl _
  | cons operand operands induction =>
      exact (pool_repeated roomier number program operand).bind induction

theorem defineHere_repeated (roomier : limits.Roomier other) (draft : Draft)
    (line : SourceLine) :
    Traced.Repeated (draft.defineHere limits line) (draft.defineHere other line) :=
  define_repeated roomier draft line _ _

theorem declaration_repeated
    (add : Program → String → Option Int → Except Failure Program)
    (roomier : limits.Roomier other) (draft : Draft) (line : SourceLine) :
    Traced.Repeated (declaration add limits draft line) (declaration add other draft line) := by
  refine (defineHere_repeated roomier draft line).bind ?_
  intro defined
  exact Traced.repeated_refl _

theorem obey_repeated (roomier : limits.Roomier other) (draft : Draft) (line : SourceLine)
    (order : Directive) :
    Traced.Repeated (draft.obey limits line order) (draft.obey other line order) := by
  have label := defineHere_repeated roomier draft line
  cases order with
  | orig => exact Traced.repeated_refl _
  | endSegment => exact Traced.repeated_refl _
  | equ =>
      apply Traced.Repeated.map
      unfold equate
      split
      · exact Traced.repeated_refl _
      · refine Traced.Repeated.shared fun operand => Traced.Repeated.shared ?_
        rintro ⟨value, relocatable⟩
        refine (define_repeated roomier draft line value relocatable).bind ?_
        intro defined
        exact Traced.repeated_refl _
  | fill => exact label.bind fun defined => Traced.repeated_refl _
  | strz =>
      apply Traced.Repeated.map
      exact label.bind fun defined => Traced.repeated_refl _
  | blkw =>
      apply Traced.Repeated.map
      refine Traced.Repeated.shared fun operand => Traced.Repeated.shared fun words => ?_
      exact label.bind fun defined => Traced.repeated_refl _
  | ent => exact (declaration_repeated Program.addEntry roomier draft line).map _
  | ext => exact (declaration_repeated Program.addExternal roomier draft line).map _

theorem accept_repeated (roomier : limits.Roomier other) (draft : Draft) (line : SourceLine) :
    Traced.Repeated (draft.accept limits line) (draft.accept other line) := by
  unfold accept
  split
  · exact Traced.repeated_refl _
  · refine .shared fun _ => .shared fun _ => .shared fun _ => ?_
    apply Traced.Repeated.map
    refine (defineHere_repeated roomier draft line).bind fun defined => ?_
    refine (poolAll_repeated roomier line.number defined.program line.operands).bind ?_
    intro program
    exact Traced.repeated_refl _
  · rename_i order _
    refine .shared fun _ => .shared fun _ => .shared fun _ => ?_
    exact obey_repeated roomier draft line order

theorem readLines_repeated (roomier : limits.Roomier other) (ending : Ending) (count : Nat)
    (draft : Draft) (lines : List String) :
    Traced.Repeated (readLines limits ending count draft lines)
      (readLines other ending count draft lines) := by
  induction lines generalizing count draft with
  | nil => exact Traced.repeated_refl _
  | cons text rest induction =>
      simp only [readLines, roomier.records, roomier.host]
      split
      · exact induction _ _
      · split
        · exact Traced.repeated_refl _
        · split
          · exact Traced.repeated_refl _
          · rename_i line _
            refine (accept_repeated roomier draft line).bind fun progress => ?_
            cases progress with
            | done program => exact Traced.repeated_refl _
            | more next => exact induction _ _

end Draft

theorem assemble_repeated {limits other : Limits} (roomier : limits.Roomier other)
    (source : Source) : Traced.Repeated (assemble limits source) (assemble other source) := by
  refine (Draft.readLines_repeated roomier source.ending 0 {} source.lines).bind ?_
  intro program
  exact Traced.repeated_refl _

end Lc3Assembler
