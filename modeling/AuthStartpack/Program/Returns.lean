import AuthStartpack.Program.Sequential

/-!
Owns what a program can return: the values that it ends with for some inputs and
some stores found at its steps, whatever other programs do between them. A fact
about every value that a program can return holds in every run of it.

The module names nothing of the modelled repository.
-/

namespace AuthStartpack.Program

variable {ι σ ε φ α β : Type}

/-- The program can end with this value. -/
def Returns (value : α) : Program ι σ ε φ α → Prop
  | .done (.ok reached) => reached = value
  | .done (.error _) => False
  | .step _ next => ∃ input store, (next input store).Returns value

variable {value : α}

@[simp]
theorem returns_pure {reached : α} :
    (pure reached : Program ι σ ε φ α).Returns value ↔ reached = value := Iff.rfl

@[simp]
theorem not_returns_throw {exception : φ} :
    ¬ (throw exception : Program ι σ ε φ α).Returns value := fun impossible => impossible

/-- A sequence returns what its second part returns from a value that its first part returns. -/
theorem returns_bind {program : Program ι σ ε φ β} {rest : β → Program ι σ ε φ α} :
    (program >>= rest).Returns value ↔
      ∃ middle, program.Returns middle ∧ (rest middle).Returns value := by
  rw [bind_eq]
  induction program with
  | done outcome =>
      cases outcome with
      | ok reached => simp [Program.bind, Returns]
      | error exception => simp [Program.bind, Returns]
  | step act next inductionHypothesis =>
      simp only [Program.bind, Returns, inductionHypothesis]
      constructor
      · rintro ⟨input, store, middle, first, second⟩
        exact ⟨middle, ⟨input, store, first⟩, second⟩
      · rintro ⟨middle, ⟨input, store, first⟩, second⟩
        exact ⟨input, store, middle, first, second⟩

/-- What an execution ends with can be returned. -/
theorem Completes.returns {admits : Shared ι σ ε → ℕ → ι → List ε → Prop} {call : ℕ}
    {program : Program ι σ ε φ α} {before after : Shared ι σ ε} {outcome : Except φ α}
    (completes : program.Completes admits call before outcome after) (ends : outcome = .ok value) :
    program.Returns value := by
  induction completes with
  | done reached shared =>
      subst ends
      exact rfl
  | step input admitted rest inductionHypothesis => exact ⟨input, _, inductionHypothesis ends⟩

end AuthStartpack.Program
