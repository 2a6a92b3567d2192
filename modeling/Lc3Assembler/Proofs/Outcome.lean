import Lc3Assembler.Session

/-!
# Outcomes of computations

Taking the outcome of a traced computation commutes with sequencing, so what a
run returns can be followed without its events.  `OnlyRejects` says of an
outcome that its failure, if there is one, is about the source.
-/

namespace Lc3Assembler

theorem bind_eq_ok_iff {first : Except ε α} {next : α → Except ε β} {value : β} :
    (first >>= next) = .ok value ↔
      ∃ middle, first = .ok middle ∧ next middle = .ok value := by
  cases first with
  | error failure =>
      constructor
      · intro impossible
        cases impossible
      · rintro ⟨middle, impossible, _⟩
        cases impossible
  | ok middle =>
      constructor
      · intro succeeds
        exact ⟨middle, rfl, succeeds⟩
      · rintro ⟨other, equality, succeeds⟩
        cases equality
        exact succeeds

theorem bind_eq_error_iff {first : Except ε α} {next : α → Except ε β} {failure : ε} :
    (first >>= next) = .error failure ↔
      first = .error failure ∨ ∃ middle, first = .ok middle ∧ next middle = .error failure := by
  cases first with
  | error other => simp [bind, Except.bind]
  | ok middle => simp [bind, Except.bind]

@[simp] theorem ok_bind (value : α) (next : α → Except ε β) :
    (Except.ok value >>= next) = next value := rfl

@[simp] theorem error_bind (failure : ε) (next : α → Except ε β) :
    ((Except.error failure : Except ε α) >>= next) = .error failure := rfl

@[simp] theorem throw_eq_error (failure : ε) :
    (throw failure : Except ε α) = .error failure := rfl

@[simp] theorem pure_eq_ok (value : α) : (pure value : Except ε α) = .ok value := rfl

theorem map_eq_ok_iff {first : Except ε α} {change : α → β} {value : β} :
    (change <$> first) = .ok value ↔
      ∃ middle, first = .ok middle ∧ change middle = value := by
  cases first with
  | error failure => simp [Functor.map, Except.map]
  | ok middle => simp [Functor.map, Except.map]

theorem exists_eq_ok {outcome : Except ε α} (succeeds : outcome.isOk = true) :
    ∃ value, outcome = .ok value := by
  cases outcome with
  | ok value => exact ⟨value, rfl⟩
  | error failure => cases succeeds

namespace Traced

@[simp] theorem outcome_lift (outcome : Except Failure α) :
    (lift outcome).outcome = outcome := rfl

@[simp] theorem outcome_fail (failure : Failure) :
    (fail failure : Traced α).outcome = .error failure := rfl

@[simp] theorem outcome_note (event : Event) : (note event).outcome = .ok () := rfl

@[simp] theorem outcome_bind (first : Traced α) (next : α → Traced β) :
    (first >>= next).outcome =
      first.outcome >>= fun value => (next value).outcome := by
  obtain ⟨events, outcome⟩ := first
  cases outcome with
  | error failure => rfl
  | ok value => rfl

@[simp] theorem outcome_map (change : α → β) (first : Traced α) :
    (change <$> first).outcome = change <$> first.outcome := by
  obtain ⟨events, outcome⟩ := first
  cases outcome with
  | error failure => rfl
  | ok value => rfl

end Traced

/-- An assembly succeeds when its source is read and the program encoded. -/
theorem assemble_eq_ok {limits : Limits} {source : Source} {program : Program}
    {output : Output} (outcome : (assemble limits source).outcome = .ok (program, output)) :
    (Program.read limits source).outcome = .ok program ∧ program.encode = .ok output := by
  simp only [assemble, Traced.outcome_bind, Traced.outcome_lift, Traced.outcome_note, ok_bind,
    Traced.outcome_pure, bind_eq_ok_iff, Except.ok.injEq, Prod.mk.injEq] at outcome
  obtain ⟨_, read, _, encoded, rfl, rfl⟩ := outcome
  exact ⟨read, encoded⟩

/-- Whatever goes wrong is an error of the source. -/
def OnlyRejects (outcome : Except Failure α) : Prop :=
  ∀ failure, outcome = .error failure → ∃ error, failure = .rejected error

namespace OnlyRejects

theorem ok (value : α) : OnlyRejects (.ok value) := by
  intro failure impossible
  cases impossible

theorem rejected (error : AssemblyError) :
    OnlyRejects (.error (.rejected error) : Except Failure α) := by
  intro failure equality
  cases equality
  exact ⟨error, rfl⟩

theorem reject (line : Int) (cause : Cause) :
    OnlyRejects (.error (.reject line cause) : Except Failure α) :=
  rejected { cause, line := some line }

theorem bind {first : Except Failure α} {next : α → Except Failure β}
    (firstRejects : OnlyRejects first)
    (nextRejects : ∀ value, first = .ok value → OnlyRejects (next value)) :
    OnlyRejects (first >>= next) := by
  cases first with
  | error failure =>
      intro other equality
      cases equality
      exact firstRejects failure rfl
  | ok value => exact nextRejects value rfl

theorem map {first : Except Failure α} (change : α → β)
    (firstRejects : OnlyRejects first) : OnlyRejects (change <$> first) := by
  cases first with
  | error failure =>
      intro other equality
      cases equality
      exact firstRejects failure rfl
  | ok value => exact ok (change value)

end OnlyRejects

end Lc3Assembler
