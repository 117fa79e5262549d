import Mathlib.Data.List.Induction
import AuthStartpack.Program.Pool

/-!
Owns the moments of a run at which one call takes its steps. A call that has
ended took every step of its program somewhere in the schedule, and between two
of them its program and what it has reported stay the same. `Pool.reaches` is the
rule for sequencing: the call gets to the rest of its program, at a moment at
which the part before it has established its postcondition.
-/

namespace AuthStartpack.Pool

variable {ι σ ε φ α β : Type} {pool : Pool ι σ ε φ α} {call : ℕ}

/-- What a step of this call reports. -/
def reports (pool : Pool ι σ ε φ α) (call : ℕ) (input : ι) : List ε :=
  match pool.calls[call]? with
  | some (.step act _) => (act input pool.shared.store).2
  | _ => []

theorem step_running {act : ι → σ → σ × List ε} {next : ι → σ → Program ι σ ε φ α}
    (running : pool.calls[call]? = some (.step act next)) (input : ι) :
    (pool.step call input).shared = pool.shared.advance call input (act input pool.shared.store) ∧
      (pool.step call input).calls[call]? = some (next input pool.shared.store) ∧
        pool.reports call input = (act input pool.shared.store).2 := by
  refine ⟨?_, ?_, ?_⟩
  · simp only [step, running]
  · simp only [step, running]
    exact List.getElem?_set_self (List.getElem?_eq_some_iff.mp running).1
  · simp only [reports, running]

theorem step_done {outcome : Except φ α} (done : pool.calls[call]? = some (.done outcome))
    (input : ι) :
    pool.step call input = pool := by
  simp only [step, done]

/-- The others report nothing in the name of a call. -/
theorem step_untouched {other : ℕ} (different : other ≠ call) (input : ι) :
    Shared.Untouched call pool.shared (pool.step other input).shared := by
  unfold step
  split
  · exact Shared.untouched_advance different _ _ _
  · exact .refl _ _

theorem run_untouched_of_absent {schedule : List (ℕ × ι)}
    (absent : ∀ step ∈ schedule, step.1 ≠ call) :
    Shared.Untouched call pool.shared (pool.run schedule).shared := by
  induction schedule generalizing pool with
  | nil => exact .refl _ _
  | cons head tail inductionHypothesis =>
      obtain ⟨other, input⟩ := head
      refine (step_untouched (absent (other, input) List.mem_cons_self) input).trans ?_
      exact inductionHypothesis fun step member => absent step (List.mem_cons_of_mem _ member)

/-- An ended call stays ended, and reports nothing more. -/
theorem run_of_done {outcome : Except φ α} (done : pool.calls[call]? = some (.done outcome))
    (schedule : List (ℕ × ι)) :
    (pool.run schedule).calls[call]? = some (.done outcome) ∧
      (pool.run schedule).shared.eventsOf call = pool.shared.eventsOf call := by
  induction schedule generalizing pool with
  | nil => exact ⟨done, rfl⟩
  | cons head tail inductionHypothesis =>
      obtain ⟨other, input⟩ := head
      by_cases same : other = call
      · subst same
        simp only [run, step_done done]
        exact inductionHypothesis done
      · have stays : (pool.step other input).calls[call]? = some (.done outcome) := by
          rw [← done]
          exact @run_calls_of_absent _ _ _ _ _ pool call [(other, input)] (by simpa using same)
        obtain ⟨finished, silent⟩ := inductionHypothesis stays
        exact ⟨finished, silent.trans (step_untouched same input).eventsOf⟩

/-- A call that is running and has ended later took its next step in between. -/
theorem next_step {act : ι → σ → σ × List ε} {next : ι → σ → Program ι σ ε φ α}
    {outcome : Except φ α} {schedule : List (ℕ × ι)}
    (running : pool.calls[call]? = some (.step act next))
    (ended : (pool.run schedule).outcome? call = some outcome) :
    ∃ before input after, schedule = before ++ (call, input) :: after ∧
      (∀ step ∈ before, step.1 ≠ call) ∧
        (pool.run before).calls[call]? = some (.step act next) := by
  induction schedule generalizing pool with
  | nil =>
      rw [outcome?_eq_some] at ended
      exact nomatch running.symm.trans ended
  | cons head tail inductionHypothesis =>
      obtain ⟨other, input⟩ := head
      by_cases same : other = call
      · subst same
        exact ⟨[], input, tail, rfl, fun _ member => (List.not_mem_nil member).elim, running⟩
      · have stays : (pool.step other input).calls[call]? = some (.step act next) := by
          rw [← running]
          exact @run_calls_of_absent _ _ _ _ _ pool call [(other, input)] (by simpa using same)
        obtain ⟨before, later, after, rfl, absent, still⟩ := inductionHypothesis stays ended
        refine ⟨(other, input) :: before, later, after, rfl, ?_, still⟩
        intro step member
        rcases List.mem_cons.mp member with rfl | old
        · exact same
        · exact absent step old

/-- The same for a program that begins with a single action. -/
theorem next_atomically {act : ι → σ → Except φ β × σ × List ε} {rest : β → Program ι σ ε φ α}
    {outcome : Except φ α} {schedule : List (ℕ × ι)}
    (running : pool.calls[call]? = some (Program.atomically act >>= rest))
    (ended : (pool.run schedule).outcome? call = some outcome) :
    ∃ before input after, schedule = before ++ (call, input) :: after ∧
      (∀ step ∈ before, step.1 ≠ call) ∧
        let reached := pool.run before
        let made := act input reached.shared.store
        (reached.step call input).shared = reached.shared.advance call input made.2 ∧
          (reached.step call input).calls[call]? = some (Program.done made.1 >>= rest) ∧
            reached.reports call input = made.2.2 := by
  obtain ⟨before, input, after, equal, absent, still⟩ := next_step running ended
  exact ⟨before, input, after, equal, absent, step_running still input⟩

/-- The call takes a step with this input at this moment of the run. -/
def Moment (pool : Pool ι σ ε φ α) (schedule : List (ℕ × ι)) (call : ℕ) (shared : Shared ι σ ε)
    (input : ι) : Prop :=
  ∃ before after, schedule = before ++ (call, input) :: after ∧ (pool.run before).shared = shared

/-- The steps of a run are taken at its moments. -/
theorem admitted_moments (pool : Pool ι σ ε φ α) (schedule : List (ℕ × ι)) :
    pool.Admitted (fun shared call input _ => pool.Moment schedule call shared input) schedule := by
  have from_ : ∀ done rest, schedule = done ++ rest →
      (pool.run done).Admitted (fun shared call input _ => pool.Moment schedule call shared input)
        rest := by
    intro done rest
    induction rest generalizing done with
    | nil => exact fun _ => trivial
    | cons head tail inductionHypothesis =>
        intro split
        refine ⟨fun _ _ _ => ⟨done, tail, split, rfl⟩, ?_⟩
        have later := inductionHypothesis (done ++ [head]) (by rw [split, List.append_cons])
        rw [run_append] at later
        exact later
  exact from_ [] schedule rfl

/-- What holds at first and is kept by every step of the schedule holds at each of its moments. -/
theorem run_invariant (holds : Pool ι σ ε φ α → Prop) {schedule : List (ℕ × ι)}
    (begins : holds pool)
    (steps : ∀ before call input after, schedule = before ++ (call, input) :: after →
      holds (pool.run before) → holds ((pool.run before).step call input))
    {before after : List (ℕ × ι)} (split : schedule = before ++ after) :
      holds (pool.run before) := by
  induction before using List.reverseRecOn generalizing after with
  | nil => exact begins
  | append_singleton early last inductionHypothesis =>
      obtain ⟨call, input⟩ := last
      rw [List.append_assoc, List.singleton_append] at split
      rw [run_append]
      exact steps early call input after split (inductionHypothesis split)

/-- What a law asks of a call, it asks of the call at each moment of a run. -/
theorem guarantee_at {law : Law ι σ ε} {relation : Shared ι σ ε → Shared ι σ ε → Prop}
    {post : ℕ → Except φ α → Shared ι σ ε → Prop} (parallel : Parallel law relation)
    (verified : pool.VerifiedUnder law relation post)
    {schedule before after : List (ℕ × ι)} {input : ι}
    (admitted : pool.Admitted law.admits schedule)
    (split : schedule = before ++ (call, input) :: after) :
    ((pool.run before).step call input).shared = (pool.run before).shared ∨
      law.guarantee call (pool.run before).shared ((pool.run before).step call input).shared := by
  subst split
  obtain ⟨early, now, -⟩ := admitted_append.mp admitted
  obtain ⟨-, reached⟩ := run_verifiedUnder parallel verified early
  exact (step_verifiedUnder parallel reached call input now).1

/-- The journal of a run goes on from the one before it. -/
theorem run_journal (pool : Pool ι σ ε φ α) (schedule : List (ℕ × ι)) :
    pool.shared.journal <+: (pool.run schedule).shared.journal := by
  induction schedule generalizing pool with
  | nil => exact List.prefix_refl _
  | cons head tail inductionHypothesis =>
      obtain ⟨call, input⟩ := head
      refine List.IsPrefix.trans ?_ (inductionHypothesis (pool.step call input))
      unfold step
      split
      · exact List.prefix_append _ _
      · exact List.prefix_refl _

section Sequencing

variable {admits : Shared ι σ ε → ℕ → ι → List ε → Prop}
variable {relation : Shared ι σ ε → Shared ι σ ε → Prop}
variable {post : ℕ → Except φ α → Shared ι σ ε → Prop}

/-- A call that has ended was once about to begin the rest of its program. -/
theorem reaches (refl : ∀ shared, relation shared shared)
    (trans : ∀ first second third, relation first second → relation second third →
      relation first third)
    {program : Program ι σ ε φ β} {rest : β → Program ι σ ε φ α}
    {middle : Except φ β → Shared ι σ ε → Prop} {outcome : Except φ α} {schedule : List (ℕ × ι)}
    (verified : pool.Verified admits relation post) (admitted : pool.Admitted admits schedule)
    (running : pool.calls[call]? = some (program >>= rest))
    (correct : program.wp (.concurrent admits relation) call middle pool.shared)
    (ended : (pool.run schedule).outcome? call = some outcome) :
    ∃ before after result, schedule = before ++ after ∧ middle result (pool.run before).shared ∧
      (pool.run before).calls[call]? = some (Program.done result >>= rest) := by
  induction program generalizing pool schedule with
  | done result => exact ⟨[], schedule, result, rfl, correct, running⟩
  | step act next inductionHypothesis =>
      obtain ⟨before, input, after, rfl, absent, still⟩ := next_step running ended
      obtain ⟨admittedBefore, admittedStep, admittedAfter⟩ := admitted_append.mp admitted
      obtain ⟨related, verifiedBefore⟩ := run_wp refl trans verified admittedBefore
      obtain ⟨shared, stepped, -⟩ := step_running still input
      obtain ⟨-, continues⟩ :=
        correct (pool.run before).shared ⟨related, run_untouched_of_absent absent⟩
        input (admittedStep _ _ still)
      rw [← shared] at continues
      rw [run_append] at ended
      obtain ⟨-, verifiedAfter⟩ := step_verified refl trans verifiedBefore call input admittedStep
      obtain ⟨middleSteps, later, result, rfl, established, resumed⟩ :=
        inductionHypothesis input (pool.run before).shared.store verifiedAfter admittedAfter stepped
          continues ended
      refine ⟨before ++ (call, input) :: middleSteps, later, result, by simp, ?_, ?_⟩
      · rw [run_append]
        exact established
      · rw [run_append]
        exact resumed

end Sequencing

end AuthStartpack.Pool
