import AuthStartpack.Program.Moments

/-!
Owns the changes that a program makes at most once. `Program.Always` says of
every step of a program, whatever store it is taken in, that it keeps a relation;
`Program.AtMostOnce` allows one step to break it. In a run, two steps of such a
program that both break the relation are one step.

The module names nothing of the modelled repository.
-/

namespace AuthStartpack

variable {ι σ ε φ α β : Type} {relation : σ → σ → Prop}

namespace Program

/-- Every step of the program keeps the relation. -/
def Always (relation : σ → σ → Prop) : Program ι σ ε φ α → Prop
  | .done _ => True
  | .step act next => ∀ input store, relation store (act input store).1 ∧
      (next input store).Always relation

/-- At most one step of the program breaks the relation. -/
def AtMostOnce (relation : σ → σ → Prop) : Program ι σ ε φ α → Prop
  | .done _ => True
  | .step act next => ∀ input store,
      relation store (act input store).1 ∧ (next input store).AtMostOnce relation ∨
        (next input store).Always relation

theorem Always.atMostOnce {program : Program ι σ ε φ α} (always : program.Always relation) :
    program.AtMostOnce relation := by
  cases program with
  | done outcome => trivial
  | step act next => exact fun input store => .inr (always input store).2

theorem Always.bind {program : Program ι σ ε φ α} {rest : α → Program ι σ ε φ β}
    (first : program.Always relation) (next : ∀ value, (rest value).Always relation) :
    (program >>= rest).Always relation := by
  rw [bind_eq]
  induction program with
  | done outcome =>
      cases outcome with
      | ok value => exact next value
      | error exception => trivial
  | step act continuation inductionHypothesis =>
      intro input store
      exact ⟨(first input store).1, inductionHypothesis input store (first input store).2⟩

theorem Always.catchWith {program : Program ι σ ε φ α} {handler : φ → Program ι σ ε φ α}
    (body : program.Always relation) (handles : ∀ exception, (handler exception).Always relation) :
    (program.catchWith handler).Always relation := by
  induction program with
  | done outcome =>
      cases outcome with
      | ok value => trivial
      | error exception => exact handles exception
  | step act next inductionHypothesis =>
      intro input store
      exact ⟨(body input store).1, inductionHypothesis input store (body input store).2⟩

namespace AtMostOnce

/-- The change may be in the rest of the program. -/
theorem after {program : Program ι σ ε φ α} {rest : α → Program ι σ ε φ β}
    (first : program.Always relation) (next : ∀ value, (rest value).AtMostOnce relation) :
    (program >>= rest).AtMostOnce relation := by
  rw [bind_eq]
  induction program with
  | done outcome =>
      cases outcome with
      | ok value => exact next value
      | error exception => trivial
  | step act continuation inductionHypothesis =>
      intro input store
      exact .inl ⟨(first input store).1, inductionHypothesis input store (first input store).2⟩

/-- The change may be in the first part of the program. -/
theorem before {program : Program ι σ ε φ α} {rest : α → Program ι σ ε φ β}
    (first : program.AtMostOnce relation) (next : ∀ value, (rest value).Always relation) :
    (program >>= rest).AtMostOnce relation := by
  rw [bind_eq]
  induction program with
  | done outcome =>
      cases outcome with
      | ok value => exact (next value).atMostOnce
      | error exception => trivial
  | step act continuation inductionHypothesis =>
      intro input store
      rcases first input store with ⟨kept, later⟩ | spent
      · exact .inl ⟨kept, inductionHypothesis input store later⟩
      · exact .inr (spent.bind next)

theorem ite {condition : Prop} [Decidable condition] {program other : Program ι σ ε φ α}
    (yes : program.AtMostOnce relation) (no : other.AtMostOnce relation) :
    (if condition then program else other).AtMostOnce relation := by
  split
  · exact yes
  · exact no

/-- The change may be in the program, if its handler makes none. -/
theorem tryCatch {program : Program ι σ ε φ α} {handler : φ → Program ι σ ε φ α}
    (body : program.AtMostOnce relation)
    (handles : ∀ exception, (handler exception).Always relation) :
    (MonadExcept.tryCatch program handler).AtMostOnce relation := by
  change (program.catchWith handler).AtMostOnce relation
  induction program with
  | done outcome =>
      cases outcome with
      | ok value => trivial
      | error exception => exact (handles exception).atMostOnce
  | step act next inductionHypothesis =>
      intro input store
      rcases body input store with ⟨kept, later⟩ | spent
      · exact .inl ⟨kept, inductionHypothesis input store later⟩
      · exact .inr (spent.catchWith handles)

theorem atomically (act : ι → σ → Except φ α × σ × List ε) :
    (Program.atomically act : Program ι σ ε φ α).AtMostOnce relation :=
  fun _ _ => .inr trivial

end AtMostOnce

/-- What every step keeps by the rules for single steps. -/
theorem always_of_wp {program : Program ι σ ε φ α} {call : ℕ} {shared : Shared ι σ ε}
    {post : Except φ α → Shared ι σ ε → Prop}
    (holds : program.wp (.stepwise (fun _ _ _ _ => True) fun before after =>
      relation before.store after.store) call post shared) : program.Always relation := by
  induction program generalizing shared with
  | done outcome => trivial
  | step act next inductionHypothesis =>
      intro input store
      obtain ⟨kept, rest⟩ := holds ⟨store, shared.journal, shared.last⟩ trivial input trivial
      exact ⟨kept, inductionHypothesis input store rest⟩

end Program

/-! ### Runs -/

namespace Pool

variable {pool : Pool ι σ ε φ α} {call : ℕ}

/-- A property of the program of a call that its steps keep holds of it throughout a run. -/
theorem run_program {holds : Program ι σ ε φ α → Prop}
    (steps : ∀ act next input store, holds (.step act next) → holds (next input store))
    (begins : ∀ program, pool.calls[call]? = some program → holds program)
    (schedule : List (ℕ × ι)) :
    ∀ program, (pool.run schedule).calls[call]? = some program → holds program := by
  induction schedule generalizing pool with
  | nil => exact begins
  | cons head tail inductionHypothesis =>
      obtain ⟨other, input⟩ := head
      refine inductionHypothesis ?_
      intro program present
      by_cases same : other = call
      · subst same
        by_cases running : ∃ act next, pool.calls[other]? = some (.step act next)
        · obtain ⟨act, next, running⟩ := running
          rw [(step_running running input).2.1] at present
          cases present
          exact steps act next input _ (begins _ running)
        · rw [step_idle input running] at present
          exact begins program present
      · have stays : (pool.step other input).calls[call]? = pool.calls[call]? :=
          @run_calls_of_absent _ _ _ _ _ pool call [(other, input)] (by simpa using same)
        rw [stays] at present
        exact begins program present

/-- A step that breaks the relation is the last one of its call to do so. -/
theorem relation_after_change (refl : ∀ store, relation store store)
    (once : ∀ program, pool.calls[call]? = some program → program.AtMostOnce relation)
    {before middle : List (ℕ × ι)} {first second : ι}
    (changed : ¬ relation (pool.run before).shared.store
      ((pool.run before).step call first).shared.store) :
    let later := pool.run (before ++ (call, first) :: middle)
    relation later.shared.store (later.step call second).shared.store := by
  intro later
  have still : ∀ program, (pool.run before).calls[call]? = some program →
      program.AtMostOnce relation ∨ program.Always relation := by
    refine run_program ?_ (fun program present => .inl (once program present)) before
    rintro act next input store (one | always)
    · rcases one input store with ⟨-, later⟩ | spent
      · exact .inl later
      · exact .inr spent
    · exact .inr (always input store).2
  -- after the change, nothing of the kind is left
  have spent : ∀ program, ((pool.run before).step call first).calls[call]? = some program →
      program.Always relation := by
    by_cases running : ∃ act next, (pool.run before).calls[call]? = some (.step act next)
    · obtain ⟨act, next, running⟩ := running
      obtain ⟨shared, stepped, -⟩ := step_running running first
      rw [shared, Shared.advance_store] at changed
      intro program present
      rw [stepped] at present
      cases present
      rcases still _ running with one | always
      · rcases one first (pool.run before).shared.store with ⟨kept, -⟩ | spent
        · exact absurd kept changed
        · exact spent
      · exact (always first _).2
    · rw [step_idle first running] at changed
      exact absurd (refl _) changed
  have lasting : ∀ program, later.calls[call]? = some program → program.Always relation := by
    have split : later = ((pool.run before).step call first).run middle := by
      show pool.run (before ++ (call, first) :: middle) = _
      rw [run_append]
      rfl
    rw [split]
    exact run_program (fun act next input store always => (always input store).2) spent middle
  show relation later.shared.store (later.step call second).shared.store
  by_cases running : ∃ act next, later.calls[call]? = some (.step act next)
  · obtain ⟨act, next, running⟩ := running
    rw [(step_running running second).1, Shared.advance_store]
    exact (lasting _ running second _).1
  · rw [step_idle second running]
    exact refl _

/-- Two steps of a call that both break the relation are one step. -/
theorem change_unique (refl : ∀ store, relation store store)
    (once : ∀ program, pool.calls[call]? = some program → program.AtMostOnce relation)
    {schedule before other after rest : List (ℕ × ι)} {first second : ι}
    (split : schedule = before ++ (call, first) :: after)
    (splitToo : schedule = other ++ (call, second) :: rest)
    (changed : ¬ relation (pool.run before).shared.store
      ((pool.run before).step call first).shared.store)
    (changedToo : ¬ relation (pool.run other).shared.store
      ((pool.run other).step call second).shared.store) :
    before = other := by
  have comparable := List.append_eq_append_iff.mp (split.symm.trans splitToo)
  rcases comparable with ⟨middle, longer, rest⟩ | ⟨middle, longer, rest⟩
  · cases middle with
    | nil => rw [longer, List.append_nil]
    | cons head tail =>
        obtain ⟨rfl, -⟩ := List.cons.inj rest
        subst longer
        exact absurd (relation_after_change refl once changed) changedToo
  · cases middle with
    | nil => rw [longer, List.append_nil]
    | cons head tail =>
        obtain ⟨rfl, -⟩ := List.cons.inj rest
        subst longer
        exact absurd (relation_after_change refl once changedToo) changed

end Pool

end AuthStartpack
