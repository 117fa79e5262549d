import AuthStartpack.Program.Logic
import Mathlib.Logic.Function.Basic

/-!
Owns the interleavings of programs: a pool of calls over one shared state, of
which a schedule lets one after the other take a step. `Pool.run_wp` is the rule
for parallel composition: when each call is verified under the same two-state
relation, every schedule keeps the relation, and every call is at each moment
verified from a state that the others have since changed only within it.
-/

namespace AuthStartpack

/-- Calls in flight over one shared state; the position of a call in the list is its number. -/
structure Pool (ι σ ε φ α : Type) where
  shared : Shared ι σ ε
  calls : List (Program ι σ ε φ α)

namespace Pool

variable {ι σ ε φ α : Type}

/-- Let `call` take its next step; a finished or unknown call does nothing. -/
def step (pool : Pool ι σ ε φ α) (call : ℕ) (input : ι) : Pool ι σ ε φ α :=
  match pool.calls[call]? with
  | some (.step act next) =>
      { shared := pool.shared.advance call input (act input pool.shared.store)
        calls := pool.calls.set call (next input pool.shared.store) }
  | _ => pool

theorem step_idle {pool : Pool ι σ ε φ α} {call : ℕ} (input : ι)
    (idle : ¬ ∃ act next, pool.calls[call]? = some (.step act next)) :
      pool.step call input = pool := by
  unfold step
  split
  case h_1 act next found => exact absurd ⟨act, next, found⟩ idle
  case h_2 => rfl

/-- Let the calls take steps in the order of `schedule`. -/
def run (pool : Pool ι σ ε φ α) : List (ℕ × ι) → Pool ι σ ε φ α
  | [] => pool
  | (call, input) :: rest => (pool.step call input).run rest

/-- Every step that `schedule` takes is admitted in the state it is taken in. -/
def Admitted (admits : Shared ι σ ε → ℕ → ι → List ε → Prop) (pool : Pool ι σ ε φ α) :
    List (ℕ × ι) → Prop
  | [] => True
  | (call, input) :: rest =>
      (∀ act next, pool.calls[call]? = some (.step act next) →
        admits pool.shared call input (act input pool.shared.store).2) ∧
      (pool.step call input).Admitted admits rest

/-- `Admitted`, evaluated. -/
def admitted? (admits : Shared ι σ ε → ℕ → ι → List ε → Prop)
    [∀ shared call input events, Decidable (admits shared call input events)]
    (pool : Pool ι σ ε φ α) : List (ℕ × ι) → Bool
  | [] => true
  | (call, input) :: rest =>
      (match pool.calls[call]? with
        | some (.step act _) =>
            decide (admits pool.shared call input (act input pool.shared.store).2)
        | _ => true) && (pool.step call input).admitted? admits rest

theorem admitted_of_admitted? {admits : Shared ι σ ε → ℕ → ι → List ε → Prop}
    [∀ shared call input events, Decidable (admits shared call input events)]
    {pool : Pool ι σ ε φ α} {schedule : List (ℕ × ι)}
    (checked : pool.admitted? admits schedule = true) : pool.Admitted admits schedule := by
  induction schedule generalizing pool with
  | nil => trivial
  | cons head tail inductionHypothesis =>
      obtain ⟨call, input⟩ := head
      simp only [admitted?, Bool.and_eq_true] at checked
      refine ⟨?_, inductionHypothesis checked.2⟩
      intro act next running
      have first := checked.1
      simp only [running, decide_eq_true_eq] at first
      exact first

/-- Where every step is admitted, so is every schedule. -/
theorem admitted_any {pool : Pool ι σ ε φ α} (schedule : List (ℕ × ι)) :
    pool.Admitted (fun _ _ _ _ => True) schedule := by
  induction schedule generalizing pool with
  | nil => trivial
  | cons head tail inductionHypothesis => exact ⟨fun _ _ _ => trivial, inductionHypothesis⟩

@[simp]
theorem step_length (pool : Pool ι σ ε φ α) (call : ℕ) (input : ι) :
    (pool.step call input).calls.length = pool.calls.length := by
  unfold step
  split <;> simp

@[simp]
theorem run_length (pool : Pool ι σ ε φ α) (schedule : List (ℕ × ι)) :
    (pool.run schedule).calls.length = pool.calls.length := by
  induction schedule generalizing pool with
  | nil => rfl
  | cons head tail inductionHypothesis => exact (inductionHypothesis _).trans (step_length _ _ _)

/-- The steps of a schedule are those of its calls with their inputs. -/
theorem Admitted.of_schedule {admits stronger : Shared ι σ ε → ℕ → ι → List ε → Prop}
    {pool : Pool ι σ ε φ α} {schedule : List (ℕ × ι)} (admitted : pool.Admitted admits schedule)
    (narrows : ∀ shared call input events, call < pool.calls.length → (call, input) ∈ schedule →
      admits shared call input events → stronger shared call input events) :
    pool.Admitted stronger schedule := by
  induction schedule generalizing pool with
  | nil => trivial
  | cons head tail inductionHypothesis =>
      obtain ⟨call, input⟩ := head
      refine ⟨?_, inductionHypothesis admitted.2 ?_⟩
      · intro act next running
        have position := (List.getElem?_eq_some_iff.mp running).1
        exact narrows _ _ _ _ position (List.mem_cons_self) (admitted.1 act next running)
      · intro shared other used events position member
        rw [step_length] at position
        exact narrows shared other used events position (List.mem_cons_of_mem _ member)

/-- What `call` has returned or thrown, if it has ended. -/
def outcome? (pool : Pool ι σ ε φ α) (call : ℕ) : Option (Except φ α) :=
  match pool.calls[call]? with
  | some (.done outcome) => some outcome
  | _ => none

theorem outcome?_eq_some {pool : Pool ι σ ε φ α} {call : ℕ} {outcome : Except φ α} :
    pool.outcome? call = some outcome ↔ pool.calls[call]? = some (.done outcome) := by
  unfold outcome?
  split <;> simp_all

theorem run_append (pool : Pool ι σ ε φ α) (first second : List (ℕ × ι)) :
    pool.run (first ++ second) = (pool.run first).run second := by
  induction first generalizing pool with
  | nil => rfl
  | cons head tail inductionHypothesis => exact inductionHypothesis _

theorem admitted_append {admits : Shared ι σ ε → ℕ → ι → List ε → Prop} {pool : Pool ι σ ε φ α}
    {first second : List (ℕ × ι)} :
    pool.Admitted admits (first ++ second) ↔
      pool.Admitted admits first ∧ (pool.run first).Admitted admits second := by
  induction first generalizing pool with
  | nil => simp [Admitted, run]
  | cons head tail inductionHypothesis =>
      simp only [List.cons_append, Admitted, run, inductionHypothesis, and_assoc]

/-- A call stays where it is in a schedule without its steps. -/
theorem run_calls_of_absent {pool : Pool ι σ ε φ α} {call : ℕ} {schedule : List (ℕ × ι)}
    (absent : ∀ step ∈ schedule, step.1 ≠ call) :
    (pool.run schedule).calls[call]? = pool.calls[call]? := by
  induction schedule generalizing pool with
  | nil => rfl
  | cons head tail inductionHypothesis =>
      obtain ⟨other, input⟩ := head
      have different : other ≠ call := absent (other, input) List.mem_cons_self
      have rest : ((pool.step other input).run tail).calls[call]? =
          (pool.step other input).calls[call]? :=
        inductionHypothesis fun step member => absent step (List.mem_cons_of_mem _ member)
      refine rest.trans ?_
      unfold step
      split
      · exact List.getElem?_set_ne different
      · rfl

/-- Whatever has happened, a call ends once it has taken its remaining steps. -/
theorem exists_outcome {pool : Pool ι σ ε φ α} {call : ℕ} (position : call < pool.calls.length)
    (input : ι) :
    ∃ steps outcome, (pool.run (List.replicate steps (call, input))).outcome? call =
      some outcome := by
  have present : pool.calls[call]? = some pool.calls[call] := List.getElem?_eq_getElem position
  generalize pool.calls[call] = program at present
  induction program generalizing pool with
  | done outcome => exact ⟨0, outcome, outcome?_eq_some.mpr present⟩
  | step act next inductionHypothesis =>
      have stepped : (pool.step call input).calls[call]? = some (next input pool.shared.store) := by
        simp only [step, present]
        exact List.getElem?_set_self position
      have stays : call < (pool.step call input).calls.length := by
        rw [step_length]
        exact position
      obtain ⟨steps, outcome, ended⟩ := inductionHypothesis input pool.shared.store stays stepped
      exact ⟨steps + 1, outcome, ended⟩

/-- What lets calls run side by side under a law: they may be interrupted by whatever keeps
`relation`, and keep it themselves. -/
structure Parallel (law : Law ι σ ε) (relation : Shared ι σ ε → Shared ι σ ε → Prop) : Prop where
  refl : ∀ shared, relation shared shared
  trans : ∀ first second third, relation first second → relation second third → relation first third
  rely : ∀ call before after, relation before after → Shared.Untouched call before after →
    law.rely call before after
  guarantee : ∀ call before after, law.guarantee call before after → relation before after

/-- A call is verified from some earlier state, and the others have since kept `relation`. -/
def VerifiedUnder (law : Law ι σ ε) (relation : Shared ι σ ε → Shared ι σ ε → Prop)
    (post : ℕ → Except φ α → Shared ι σ ε → Prop) (pool : Pool ι σ ε φ α) : Prop :=
  ∀ call program, pool.calls[call]? = some program →
    ∃ earlier, relation earlier pool.shared ∧ Shared.Untouched call earlier pool.shared ∧
      program.wp law call (post call) earlier

/-- The same where nothing is asked of the calls but `relation`. -/
def Verified (admits : Shared ι σ ε → ℕ → ι → List ε → Prop)
    (relation : Shared ι σ ε → Shared ι σ ε → Prop)
    (post : ℕ → Except φ α → Shared ι σ ε → Prop) (pool : Pool ι σ ε φ α) : Prop :=
  ∀ call program, pool.calls[call]? = some program →
    ∃ earlier, relation earlier pool.shared ∧ Shared.Untouched call earlier pool.shared ∧
      program.wp (.concurrent admits relation) call (post call) earlier

section Laws

variable {law : Law ι σ ε} {relation : Shared ι σ ε → Shared ι σ ε → Prop}
variable {post : ℕ → Except φ α → Shared ι σ ε → Prop}

/-- A step keeps what its law asks of the call, if there is a step. -/
theorem step_verifiedUnder (parallel : Parallel law relation) {pool : Pool ι σ ε φ α}
    (verified : pool.VerifiedUnder law relation post) (call : ℕ) (input : ι)
    (admitted : ∀ act next, pool.calls[call]? = some (.step act next) →
      law.admits pool.shared call input (act input pool.shared.store).2) :
    ((pool.step call input).shared = pool.shared ∨
        law.guarantee call pool.shared (pool.step call input).shared) ∧
      (pool.step call input).VerifiedUnder law relation post := by
  unfold step
  split
  case h_2 => exact ⟨.inl rfl, verified⟩
  case h_1 act next running =>
    obtain ⟨earlier, related, untouched, correct⟩ := verified call _ running
    obtain ⟨kept, rest⟩ := correct pool.shared (parallel.rely _ _ _ related untouched) input
      (admitted act next running)
    refine ⟨.inr kept, ?_⟩
    intro other program found
    by_cases same : other = call
    · subst same
      have position : other < pool.calls.length := (List.getElem?_eq_some_iff.mp running).1
      rw [List.getElem?_set_self position, Option.some.injEq] at found
      subst found
      exact ⟨_, parallel.refl _, Shared.Untouched.refl _ _, rest⟩
    · rw [List.getElem?_set_ne (Ne.symm same)] at found
      obtain ⟨start, reached, silent, holds⟩ := verified other program found
      exact ⟨start, parallel.trans _ _ _ reached (parallel.guarantee _ _ _ kept),
        silent.trans (Shared.untouched_advance (Ne.symm same) _ _ _), holds⟩

/-- Parallel composition, with what the law asks of each step. -/
theorem run_verifiedUnder (parallel : Parallel law relation) {pool : Pool ι σ ε φ α}
    (verified : pool.VerifiedUnder law relation post) {schedule : List (ℕ × ι)}
    (admitted : pool.Admitted law.admits schedule) :
    relation pool.shared (pool.run schedule).shared ∧
      (pool.run schedule).VerifiedUnder law relation post := by
  induction schedule generalizing pool with
  | nil => exact ⟨parallel.refl _, verified⟩
  | cons head tail inductionHypothesis =>
      obtain ⟨call, input⟩ := head
      obtain ⟨stepped, stillVerified⟩ := step_verifiedUnder parallel verified call input admitted.1
      obtain ⟨later, finallyVerified⟩ := inductionHypothesis stillVerified admitted.2
      refine ⟨?_, finallyVerified⟩
      rcases stepped with idle | kept
      · rw [← idle]
        exact later
      · exact parallel.trans _ _ _ (parallel.guarantee _ _ _ kept) later

end Laws

section Composition

variable {admits : Shared ι σ ε → ℕ → ι → List ε → Prop}
variable {relation : Shared ι σ ε → Shared ι σ ε → Prop}
variable {post : ℕ → Except φ α → Shared ι σ ε → Prop}

/-- Calls that keep a preorder run side by side. -/
theorem parallel_concurrent (refl : ∀ shared, relation shared shared)
    (trans : ∀ first second third, relation first second → relation second third →
      relation first third) : Parallel (.concurrent admits relation) relation where
  refl := refl
  trans := trans
  rely _ _ _ related untouched := ⟨related, untouched⟩
  guarantee _ _ _ kept := kept

theorem step_verified (refl : ∀ shared, relation shared shared)
    (trans : ∀ first second third, relation first second → relation second third →
      relation first third)
    {pool : Pool ι σ ε φ α} (verified : pool.Verified admits relation post)
    (call : ℕ) (input : ι)
    (admitted : ∀ act next, pool.calls[call]? = some (.step act next) →
      admits pool.shared call input (act input pool.shared.store).2) :
    relation pool.shared (pool.step call input).shared ∧
      (pool.step call input).Verified admits relation post := by
  obtain ⟨stepped, stillVerified⟩ :=
    step_verifiedUnder (parallel_concurrent refl trans) verified call input admitted
  refine ⟨?_, stillVerified⟩
  rcases stepped with idle | kept
  · rw [idle]
    exact refl _
  · exact kept

/-- Parallel composition. -/
theorem run_wp (refl : ∀ shared, relation shared shared)
    (trans : ∀ first second third, relation first second → relation second third →
      relation first third)
    {pool : Pool ι σ ε φ α} (verified : pool.Verified admits relation post)
    {schedule : List (ℕ × ι)} (admitted : pool.Admitted admits schedule) :
    relation pool.shared (pool.run schedule).shared ∧
      (pool.run schedule).Verified admits relation post :=
  run_verifiedUnder (parallel_concurrent refl trans) verified admitted

/-- A pool in which no call has begun is verified by the preconditions of its calls. -/
theorem verified_of_wp (refl : ∀ shared, relation shared shared) {pool : Pool ι σ ε φ α}
    (correct : ∀ (call : ℕ) (program : Program ι σ ε φ α), pool.calls[call]? = some program →
      program.wp (.concurrent admits relation) call (post call) pool.shared) :
    pool.Verified admits relation post :=
  fun call program found => ⟨pool.shared, refl _, Shared.Untouched.refl _ _,
    correct call program found⟩

/-- A call that is known from its present place on may be verified from there. -/
theorem Verified.update (refl : ∀ shared, relation shared shared) {pool : Pool ι σ ε φ α}
    (verified : pool.Verified admits relation post) {call : ℕ} {program : Program ι σ ε φ α}
    {goal : Except φ α → Shared ι σ ε → Prop} (found : pool.calls[call]? = some program)
    (correct : program.wp (.concurrent admits relation) call goal pool.shared) :
    pool.Verified admits relation (Function.update post call goal) := by
  intro other running present
  by_cases same : other = call
  · subst same
    rw [found] at present
    cases present
    refine ⟨pool.shared, refl _, Shared.Untouched.refl _ _, ?_⟩
    rw [Function.update_self]
    exact correct
  · rw [Function.update_of_ne same]
    exact verified other running present

/-- An ended call satisfied its postcondition when it ended. -/
theorem Verified.outcome {pool : Pool ι σ ε φ α} (verified : pool.Verified admits relation post)
    {call : ℕ} {outcome : Except φ α} (ended : pool.outcome? call = some outcome) :
    ∃ earlier, relation earlier pool.shared ∧ Shared.Untouched call earlier pool.shared ∧
      post call outcome earlier :=
  verified call _ (outcome?_eq_some.mp ended)

end Composition

/-- What every single step of the calls keeps, every step of every run keeps. -/
theorem run_stepwise {admits : Shared ι σ ε → ℕ → ι → List ε → Prop}
    {relation : Shared ι σ ε → Shared ι σ ε → Prop} (refl : ∀ shared, relation shared shared)
    {pool : Pool ι σ ε φ α}
    (each : ∀ (call : ℕ) (program : Program ι σ ε φ α), pool.calls[call]? = some program →
      ∃ shared, program.wp (.stepwise admits relation) call (fun _ _ => True) shared)
    {schedule : List (ℕ × ι)} {call : ℕ} {input : ι}
    (admitted : pool.Admitted admits (schedule ++ [(call, input)])) :
    relation (pool.run schedule).shared ((pool.run schedule).step call input).shared := by
  induction schedule generalizing pool with
  | nil =>
      simp only [run, step]
      split
      case h_1 act next running =>
        obtain ⟨shared, keeps⟩ := each call _ running
        exact (keeps pool.shared trivial input (admitted.1 act next running)).1
      case h_2 => exact refl _
  | cons head tail inductionHypothesis =>
      refine inductionHypothesis ?_ admitted.2
      intro other program found
      unfold step at found
      split at found
      case h_1 act next running =>
        by_cases same : other = head.1
        · subst same
          have position : head.1 < pool.calls.length := (List.getElem?_eq_some_iff.mp running).1
          rw [List.getElem?_set_self position, Option.some.injEq] at found
          subst found
          obtain ⟨shared, keeps⟩ := each head.1 _ running
          exact ⟨_, (keeps pool.shared trivial head.2 (admitted.1 act next running)).2⟩
        · rw [List.getElem?_set_ne (Ne.symm same)] at found
          exact each other program found
      case h_2 => exact each other program found

end Pool

end AuthStartpack
