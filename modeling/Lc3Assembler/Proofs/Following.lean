import Lc3Assembler.Proofs.Outcome

/-!
# One computation following another

Two runs on related inputs are compared step by step.  A computation follows
another one if it gives a related result whenever both succeed, and if under
some condition it cannot fail where the other one succeeds.  The rules below
mirror the ways in which computations are put together.
-/

namespace Lc3Assembler

/-- The second computation gives a related result where the first gives one,
provided that the condition holds or that it gives a result at all. -/
def Follows (certain : Prop) (related : α → β → Prop) (first : Except ε α)
    (second : Except ε β) : Prop :=
  ∀ value, first = .ok value → (certain ∨ ∃ other, second = .ok other) →
    ∃ other, second = .ok other ∧ related value other

namespace Follows

variable {certain : Prop}

theorem ok {related : α → β → Prop} {value : α} {other : β} (relation : related value other) :
    Follows certain related (.ok value : Except ε α) (.ok other) := by
  intro result equality _
  cases equality
  exact ⟨other, rfl, relation⟩

theorem error {related : α → β → Prop} (failure : ε) (second : Except ε β) :
    Follows certain related (.error failure) second := by
  intro result impossible
  cases impossible

/-- Nothing is asked of a second computation that fails. -/
theorem failing {related : α → β → Prop} (first : Except ε α) (failure : ε) :
    Follows False related first (.error failure) := by
  intro result _ possible
  rcases possible with impossible | ⟨other, impossible⟩
  · exact impossible.elim
  · cases impossible

theorem both {related : α → β → Prop} {first : Except ε α} {second : Except ε β}
    (relation : ∀ value other, first = .ok value → second = .ok other → related value other) :
    Follows False related first second := by
  intro value equality possible
  rcases possible with impossible | ⟨other, succeeds⟩
  · exact impossible.elim
  · exact ⟨other, succeeds, relation value other equality succeeds⟩

/-- A computation follows itself. -/
theorem same (computation : Except ε α) : Follows certain Eq computation computation := by
  intro result equality _
  exact ⟨result, equality, rfl⟩

/-- A check without a result only has to succeed where it must. -/
theorem check {first second : Except ε Unit} (agrees : certain → second = first) :
    Follows certain (fun _ _ => True) first second := by
  intro result equality possible
  rcases possible with forced | ⟨other, succeeds⟩
  · exact ⟨result, (agrees forced).trans equality, trivial⟩
  · exact ⟨other, succeeds, trivial⟩

theorem mono {related weaker : α → β → Prop} {first : Except ε α} {second : Except ε β}
    (follows : Follows certain related first second)
    (implies : ∀ value other, first = .ok value → second = .ok other →
      related value other → weaker value other) :
    Follows certain weaker first second := by
  intro value equality possible
  obtain ⟨other, succeeds, relation⟩ := follows value equality possible
  exact ⟨other, succeeds, implies value other equality succeeds relation⟩

theorem bind {related : α → β → Prop} {results : γ → δ → Prop} {first : Except ε α}
    {second : Except ε β} {next : α → Except ε γ} {otherNext : β → Except ε δ}
    (heads : Follows certain related first second)
    (tails : ∀ value other, first = .ok value → second = .ok other → related value other →
      Follows certain results (next value) (otherNext other)) :
    Follows certain results (first >>= next) (second >>= otherNext) := by
  intro result equality possible
  obtain ⟨value, firstSucceeds, rest⟩ := bind_eq_ok_iff.mp equality
  have headPossible : certain ∨ ∃ other, second = .ok other := by
    rcases possible with forced | ⟨final, succeeds⟩
    · exact .inl forced
    · obtain ⟨other, secondSucceeds, _⟩ := bind_eq_ok_iff.mp succeeds
      exact .inr ⟨other, secondSucceeds⟩
  obtain ⟨other, secondSucceeds, relation⟩ := heads value firstSucceeds headPossible
  have later := tails value other firstSucceeds secondSucceeds relation result rest
  rw [secondSucceeds, ok_bind] at possible ⊢
  exact later possible

/-- Both computations start with the same one. -/
theorem shared {results : γ → δ → Prop} {computation : Except ε α} {next : α → Except ε γ}
    {otherNext : α → Except ε δ}
    (tails : ∀ value, computation = .ok value →
      Follows certain results (next value) (otherNext value)) :
    Follows certain results (computation >>= next) (computation >>= otherNext) := by
  apply (same computation).bind
  intro value other succeeds _ equality
  subst equality
  exact tails value succeeds

theorem map {related : α → β → Prop} {results : γ → δ → Prop} {first : Except ε α}
    {second : Except ε β} {change : α → γ} {otherChange : β → δ}
    (follows : Follows certain related first second)
    (implies : ∀ value other, first = .ok value → second = .ok other →
      related value other → results (change value) (otherChange other)) :
    Follows certain results (change <$> first) (otherChange <$> second) := by
  rw [map_eq_pure_bind, map_eq_pure_bind]
  apply follows.bind
  intro value other firstSucceeds secondSucceeds relation
  exact ok (implies value other firstSucceeds secondSucceeds relation)

/-- A check before the rest: under the condition the second check fails only
with the first. -/
theorem guarded {related : α → β → Prop} {condition otherCondition : Prop}
    [Decidable condition] [Decidable otherCondition] {failure otherFailure : ε}
    {first : Except ε α} {second : Except ε β}
    (agrees : certain → otherCondition → condition)
    (rest : ¬condition → ¬otherCondition → Follows certain related first second) :
    Follows certain related (if condition then .error failure else first)
      (if otherCondition then .error otherFailure else second) := by
  by_cases fails : condition
  · rw [if_pos fails]
    exact error _ _
  · rw [if_neg fails]
    by_cases otherFails : otherCondition
    · rw [if_pos otherFails]
      intro value _ possible
      rcases possible with forced | ⟨other, impossible⟩
      · exact absurd (agrees forced otherFails) fails
      · cases impossible
    · rw [if_neg otherFails]
      exact rest fails otherFails

end Follows

end Lc3Assembler
