import AuthStartpack.Program.Core

/-!
Owns the weakest preconditions of programs. `Program.wp` asks, at every step of
a call, that the step keeps a guarantee whatever the other calls did before it
within a rely, and that the end of the program satisfies a postcondition. One
predicate serves both readings of a program: under `Law.concurrent` the other
calls act between any two steps, under `Law.alone` nobody does.
-/

namespace AuthStartpack

/-- What is assumed and asked of the steps of calls: the steps that are considered at all, what
the others may have done since a call's last step, and what each step of a call must keep. -/
structure Law (ι σ ε : Type) where
  admits : Shared ι σ ε → ℕ → ι → List ε → Prop
  rely : ℕ → Shared ι σ ε → Shared ι σ ε → Prop
  guarantee : ℕ → Shared ι σ ε → Shared ι σ ε → Prop

namespace Law

variable {ι σ ε : Type}

/-- Every call keeps `relation` at every step, and may rely on the others keeping it. -/
def concurrent (admits : Shared ι σ ε → ℕ → ι → List ε → Prop)
    (relation : Shared ι σ ε → Shared ι σ ε → Prop) : Law ι σ ε where
  admits := admits
  rely call before after := relation before after ∧ Shared.Untouched call before after
  guarantee _ := relation

/-- As under `concurrent`, and each step of a call is also one that this call may take. -/
def accountable (admits : Shared ι σ ε → ℕ → ι → List ε → Prop)
    (relation : Shared ι σ ε → Shared ι σ ε → Prop) (own : ℕ → Shared ι σ ε → Shared ι σ ε → Prop) :
    Law ι σ ε where
  admits := admits
  rely call before after := relation before after ∧ Shared.Untouched call before after
  guarantee call before after := relation before after ∧ own call before after

/-- The call runs without interruption. -/
def alone (admits : Shared ι σ ε → ℕ → ι → List ε → Prop)
    (relation : Shared ι σ ε → Shared ι σ ε → Prop) : Law ι σ ε where
  admits := admits
  rely _ before after := before = after
  guarantee _ := relation

/-- Every single step keeps `relation`, whatever state it is taken in. -/
def stepwise (admits : Shared ι σ ε → ℕ → ι → List ε → Prop)
    (relation : Shared ι σ ε → Shared ι σ ε → Prop) : Law ι σ ε where
  admits := admits
  rely _ _ _ := True
  guarantee _ := relation

end Law

namespace Program

variable {ι σ ε φ α β : Type} {law : Law ι σ ε} {call : ℕ}

/-- The weakest precondition of `program` run by `call` under `law`. -/
def wp (law : Law ι σ ε) (call : ℕ) (post : Except φ α → Shared ι σ ε → Prop) :
    Program ι σ ε φ α → Shared ι σ ε → Prop
  | .done outcome, shared => post outcome shared
  | .step act next, shared =>
      ∀ current, law.rely call shared current →
        ∀ input, law.admits current call input (act input current.store).2 →
          law.guarantee call current
              (current.advance call input (act input current.store)) ∧
            (next input current.store).wp law call post
              (current.advance call input (act input current.store))

/-- The postcondition of a program that `rest` continues. -/
def andThen (law : Law ι σ ε) (call : ℕ) (rest : α → Program ι σ ε φ β)
    (post : Except φ β → Shared ι σ ε → Prop) : Except φ α → Shared ι σ ε → Prop
  | .ok value, shared => (rest value).wp law call post shared
  | .error exception, shared => post (.error exception) shared

section Rules

variable {post weaker : Except φ α → Shared ι σ ε → Prop} {shared : Shared ι σ ε}

@[simp]
theorem wp_done (outcome : Except φ α) :
    (Program.done outcome).wp law call post shared ↔ post outcome shared := Iff.rfl

@[simp]
theorem wp_pure (value : α) :
    (pure value : Program ι σ ε φ α).wp law call post shared ↔ post (.ok value) shared :=
  Iff.rfl

@[simp]
theorem wp_throw (exception : φ) :
    (throw exception : Program ι σ ε φ α).wp law call post shared ↔
      post (.error exception) shared :=
  Iff.rfl

theorem wp_step (act : ι → σ → σ × List ε) (next : ι → σ → Program ι σ ε φ α) :
    (Program.step act next).wp law call post shared ↔
      ∀ current, law.rely call shared current →
        ∀ input, law.admits current call input (act input current.store).2 →
          law.guarantee call current
              (current.advance call input (act input current.store)) ∧
            (next input current.store).wp law call post
              (current.advance call input (act input current.store)) :=
  Iff.rfl

theorem wp_atomically (act : ι → σ → Except φ α × σ × List ε) :
    (atomically act).wp law call post shared ↔
      ∀ current, law.rely call shared current →
        ∀ input, law.admits current call input (act input current.store).2.2 →
          law.guarantee call current
              (current.advance call input (act input current.store).2) ∧
            post (act input current.store).1
              (current.advance call input (act input current.store).2) :=
  Iff.rfl

/-- Consequence. -/
theorem wp_mono {program : Program ι σ ε φ α}
    (holds : program.wp law call post shared)
    (weakens : ∀ outcome current, post outcome current → weaker outcome current) :
    program.wp law call weaker shared := by
  induction program generalizing shared with
  | done outcome => exact weakens outcome shared holds
  | step act next inductionHypothesis =>
      intro current relied input admitted
      obtain ⟨kept, rest⟩ := holds current relied input admitted
      exact ⟨kept, inductionHypothesis input current.store rest⟩

/-- Sequencing. -/
@[simp]
theorem wp_bind (program : Program ι σ ε φ α) (rest : α → Program ι σ ε φ β)
    (post : Except φ β → Shared ι σ ε → Prop) :
    (program >>= rest).wp law call post shared ↔
      program.wp law call (andThen law call rest post) shared := by
  rw [bind_eq]
  induction program generalizing shared with
  | done outcome => cases outcome <;> rfl
  | step act next inductionHypothesis =>
      simp only [Program.bind, wp_step, inductionHypothesis]

/-- Exception handlers. -/
theorem wp_tryCatch (program : Program ι σ ε φ α) (handler : φ → Program ι σ ε φ α) :
    (tryCatch program handler).wp law call post shared ↔
      program.wp law call (fun outcome current =>
        match outcome with
        | .ok value => post (.ok value) current
        | .error exception => (handler exception).wp law call post current) shared := by
  change (program.catchWith handler).wp law call post shared ↔ _
  induction program generalizing shared with
  | done outcome => cases outcome <;> rfl
  | step act next inductionHypothesis =>
      simp only [catchWith, wp_step, inductionHypothesis]

/-- Sequencing, from a specification of the first program. -/
theorem wp_bind_of {program : Program ι σ ε φ α} {rest : α → Program ι σ ε φ β}
    {middle : Except φ α → Shared ι σ ε → Prop} {post : Except φ β → Shared ι σ ε → Prop}
    (first : program.wp law call middle shared)
    (continues : ∀ value current, middle (.ok value) current →
      (rest value).wp law call post current)
    (throws : ∀ exception current, middle (.error exception) current →
      post (.error exception) current) :
    (program >>= rest).wp law call post shared := by
  rw [wp_bind]
  refine wp_mono first ?_
  intro outcome current reached
  cases outcome with
  | ok value => exact continues value current reached
  | error exception => exact throws exception current reached

/-- From a state in which everything is one's own, nothing but the relation is asked for. -/
theorem wp_accountable {admits : Shared ι σ ε → ℕ → ι → List ε → Prop}
    {relation : Shared ι σ ε → Shared ι σ ε → Prop} {own : ℕ → Shared ι σ ε → Shared ι σ ε → Prop}
    {free : Shared ι σ ε → Prop}
    (rely : ∀ before after, Shared.Untouched call before after → free before → free after)
    (step : ∀ current input outcome, free current → free (current.advance call input outcome))
    (owns : ∀ before after, free after → own call before after) {program : Program ι σ ε φ α}
    (holds : program.wp (.concurrent admits relation) call post shared) (starts : free shared) :
    program.wp (.accountable admits relation own) call
      (fun outcome after => post outcome after ∧ free after) shared := by
  induction program generalizing shared with
  | done outcome => exact ⟨holds, starts⟩
  | step act next inductionHypothesis =>
      intro current relied input admitted
      obtain ⟨kept, rest⟩ := holds current relied input admitted
      have reached := step current input (act input current.store) (rely _ _ relied.2 starts)
      exact ⟨⟨kept, owns _ _ reached⟩, inductionHypothesis input current.store rest reached⟩

end Rules

@[simp]
theorem andThen_ok (rest : α → Program ι σ ε φ β) (post : Except φ β → Shared ι σ ε → Prop)
    (value : α) (shared : Shared ι σ ε) :
    andThen law call rest post (.ok value) shared ↔ (rest value).wp law call post shared :=
  Iff.rfl

@[simp]
theorem andThen_error (rest : α → Program ι σ ε φ β)
    (post : Except φ β → Shared ι σ ε → Prop) (exception : φ) (shared : Shared ι σ ε) :
    andThen law call rest post (.error exception) shared ↔ post (.error exception) shared :=
  Iff.rfl

end Program

end AuthStartpack
