import AuthStartpack.Program.Logic

/-!
Owns the runs in which every call is executed without interruption, one after
the other. `Completes` is one such execution, `RunsTo` a finite sequence of
them together with its history. `Completes.of_wp` turns a verified program into
a fact about its executions.
-/

namespace AuthStartpack

variable {ι σ ε φ α : Type}

/-- `call` executes the program from one shared state to another without interruption. -/
inductive Program.Completes (admits : Shared ι σ ε → ℕ → ι → List ε → Prop) (call : ℕ) :
    Program ι σ ε φ α → Shared ι σ ε → Except φ α → Shared ι σ ε → Prop
  | done (outcome : Except φ α) (shared : Shared ι σ ε) :
      Completes admits call (.done outcome) shared outcome shared
  | step {act : ι → σ → σ × List ε} {next : ι → σ → Program ι σ ε φ α}
      {shared after : Shared ι σ ε} {outcome : Except φ α} (input : ι)
      (admitted : admits shared call input (act input shared.store).2)
      (rest : Completes admits call (next input shared.store)
        (shared.advance call input (act input shared.store)) outcome after) :
      Completes admits call (.step act next) shared outcome after

namespace Program

variable {admits : Shared ι σ ε → ℕ → ι → List ε → Prop} {call : ℕ}
variable {relation : Shared ι σ ε → Shared ι σ ε → Prop}
variable {post : Except φ α → Shared ι σ ε → Prop}

/-- An execution of a verified program ends in its postcondition and keeps the relation. -/
theorem Completes.of_wp (refl : ∀ shared, relation shared shared)
    (trans : ∀ first second third, relation first second → relation second third →
      relation first third)
    {program : Program ι σ ε φ α} {before after : Shared ι σ ε} {outcome : Except φ α}
    (completes : program.Completes admits call before outcome after)
    (correct : program.wp (.alone admits relation) call post before) :
    relation before after ∧ post outcome after := by
  induction completes with
  | done outcome shared => exact ⟨refl _, correct⟩
  | step input admitted rest inductionHypothesis =>
      obtain ⟨kept, remaining⟩ := correct _ rfl input admitted
      obtain ⟨later, reached⟩ := inductionHypothesis remaining
      exact ⟨trans _ _ _ kept later, reached⟩

/-- What holds among other calls holds of an uninterrupted one. -/
theorem wp_alone {narrower : Shared ι σ ε → ℕ → ι → List ε → Prop}
    (refl : ∀ shared, relation shared shared)
    (narrows : ∀ shared input events, narrower shared call input events →
      admits shared call input events)
    {program : Program ι σ ε φ α} {shared : Shared ι σ ε}
    (correct : program.wp (.concurrent admits relation) call post shared) :
    program.wp (.alone narrower fun _ _ => True) call post shared := by
  induction program generalizing shared with
  | done outcome => exact correct
  | step act next inductionHypothesis =>
      rintro current rfl input admitted
      obtain ⟨-, rest⟩ := correct shared ⟨refl shared, .refl call shared⟩ input
        (narrows _ _ _ admitted)
      exact ⟨trivial, inductionHypothesis input shared.store rest⟩

/-- The journal of an execution only grows. -/
theorem Completes.journal_prefix {program : Program ι σ ε φ α} {before after : Shared ι σ ε}
    {outcome : Except φ α} (completes : program.Completes admits call before outcome after) :
    before.journal <+: after.journal := by
  induction completes with
  | done outcome shared => exact List.prefix_refl _
  | step input admitted rest inductionHypothesis =>
      exact (List.prefix_append _ _).trans inductionHypothesis

/-- An execution is admitted by every law that admits the steps it reports. -/
theorem Completes.of_journal {stronger : Shared ι σ ε → ℕ → ι → List ε → Prop}
    {program : Program ι σ ε φ α} {before after : Shared ι σ ε} {outcome : Except φ α}
    (completes : program.Completes admits call before outcome after)
    (narrows : ∀ shared input events, admits shared call input events →
      (∀ event ∈ events, ⟨call, input, event⟩ ∈ after.journal) →
      stronger shared call input events) :
    program.Completes stronger call before outcome after := by
  induction completes with
  | done outcome shared => exact .done outcome shared
  | step input admitted rest inductionHypothesis =>
      refine .step input (narrows _ _ _ admitted ?_) (inductionHypothesis narrows)
      intro event reported
      exact rest.journal_prefix.subset (by simp [reported])

/-- The postcondition alone. -/
theorem Completes.post_of_wp {program : Program ι σ ε φ α} {before after : Shared ι σ ε}
    {outcome : Except φ α} (completes : program.Completes admits call before outcome after)
    (correct : program.wp (.alone admits fun _ _ => True) call post before) :
    post outcome after :=
  (completes.of_wp (fun _ => trivial) (fun _ _ _ _ _ => trivial) correct).2

/-- Where some input is always admitted, every program can be executed to its end. -/
theorem exists_completes
    (live : ∀ shared (events : ι → List ε), ∃ input, admits shared call input (events input))
    (program : Program ι σ ε φ α) (shared : Shared ι σ ε) :
    ∃ outcome after, program.Completes admits call shared outcome after := by
  induction program generalizing shared with
  | done outcome => exact ⟨outcome, shared, .done outcome shared⟩
  | step act next inductionHypothesis =>
      obtain ⟨input, admitted⟩ := live shared fun input => (act input shared.store).2
      obtain ⟨outcome, after, rest⟩ := inductionHypothesis input shared.store
        (shared.advance call input (act input shared.store))
      exact ⟨outcome, after, .step input admitted rest⟩

/-- Execute the program with these inputs, one for each step, as long as the steps are admitted. -/
def execute (admits : Shared ι σ ε → ℕ → ι → List ε → Prop)
    [∀ shared call input events, Decidable (admits shared call input events)] (call : ℕ) :
    (ℕ → ι) → Program ι σ ε φ α → Shared ι σ ε → Option (Except φ α × Shared ι σ ε)
  | _, .done outcome, shared => some (outcome, shared)
  | inputs, .step act next, shared =>
      if admits shared call (inputs 0) (act (inputs 0) shared.store).2 then
        (next (inputs 0) shared.store).execute admits call (fun position => inputs (position + 1))
          (shared.advance call (inputs 0) (act (inputs 0) shared.store))
      else none

theorem completes_of_execute
    [∀ shared call input events, Decidable (admits shared call input events)] {inputs : ℕ → ι}
    {program : Program ι σ ε φ α} {before after : Shared ι σ ε} {outcome : Except φ α}
    (executed : program.execute admits call inputs before = some (outcome, after)) :
    program.Completes admits call before outcome after := by
  induction program generalizing before inputs with
  | done reached =>
      simp only [execute, Option.some.injEq, Prod.mk.injEq] at executed
      obtain ⟨rfl, rfl⟩ := executed
      exact .done reached before
  | step act next inductionHypothesis =>
      simp only [execute] at executed
      split at executed
      · exact .step (inputs 0) ‹_› (inductionHypothesis (inputs 0) before.store executed)
      · cases executed

end Program

/-! ### Sequences of uninterrupted operations -/

/-- One executed operation, with the shared state before and after it. -/
structure Record (Op ι σ ε φ α : Type) where
  op : Op
  before : Shared ι σ ε
  outcome : Except φ α
  after : Shared ι σ ε

/-- From `start`, executing the operations of the history one after the other leads to the
last state. The number of a call is its position in the history. -/
inductive RunsTo {Op : Type} (admits : Shared ι σ ε → ℕ → ι → List ε → Prop)
    (program : Op → Program ι σ ε φ α) (start : Shared ι σ ε) :
    List (Record Op ι σ ε φ α) → Shared ι σ ε → Prop
  | start : RunsTo admits program start [] start
  | snoc {history : List (Record Op ι σ ε φ α)} {before after : Shared ι σ ε}
      {outcome : Except φ α} (earlier : RunsTo admits program start history before) (op : Op)
      (completes : (program op).Completes admits history.length before outcome after) :
      RunsTo admits program start (history ++ [⟨op, before, outcome, after⟩]) after

namespace RunsTo

variable {Op : Type} {admits : Shared ι σ ε → ℕ → ι → List ε → Prop}
variable {program : Op → Program ι σ ε φ α} {start final : Shared ι σ ε}
variable {history : List (Record Op ι σ ε φ α)}

/-- A relation that the operations of the history keep relates the ends of the run. -/
theorem relates_of_records {relation : Shared ι σ ε → Shared ι σ ε → Prop}
    (runs : RunsTo admits program start history final) (refl : ∀ shared, relation shared shared)
    (trans : ∀ first second third, relation first second → relation second third →
      relation first third)
    (step : ∀ record ∈ history, ∀ call,
      (program record.op).Completes admits call record.before record.outcome record.after →
        relation record.before record.after) :
    relation start final := by
  induction runs with
  | start => exact refl _
  | @snoc earlierHistory before after outcome earlier op completes inductionHypothesis =>
      refine trans _ _ _ (inductionHypothesis fun record member => step record ?_) ?_
      · exact List.mem_append_left _ member
      · exact step _ (List.mem_append_right _ (List.mem_singleton_self _)) _ completes

/-- Every record of the history is an execution from the state that the operations before it led
to. -/
theorem record (runs : RunsTo admits program start history final) {position : ℕ}
    {record : Record Op ι σ ε φ α} (found : history[position]? = some record) :
    RunsTo admits program start (history.take position) record.before ∧
      (program record.op).Completes admits position record.before record.outcome record.after := by
  induction runs with
  | start => cases found
  | @snoc earlierHistory before after outcome earlier op completes inductionHypothesis =>
      by_cases old : position < earlierHistory.length
      · rw [List.getElem?_append_left old] at found
        rw [List.take_append_of_le_length (Nat.le_of_lt old)]
        exact inductionHypothesis found
      · obtain ⟨inRange, equal⟩ := List.getElem?_eq_some_iff.mp found
        have last : position = earlierHistory.length := by
          simp only [List.length_append, List.length_singleton] at inRange
          omega
        subst last
        simp only [List.getElem_concat_length] at equal
        subst equal
        rw [List.take_left]
        exact ⟨earlier, completes⟩

/-- What every operation keeps relates each record of the history to the end. -/
theorem since {relation : Shared ι σ ε → Shared ι σ ε → Prop}
    (runs : RunsTo admits program start history final) (refl : ∀ shared, relation shared shared)
    (trans : ∀ first second third, relation first second → relation second third →
      relation first third)
    (step : ∀ op call before outcome after,
      (program op).Completes admits call before outcome after → relation before after)
    {position : ℕ} {record : Record Op ι σ ε φ α} (found : history[position]? = some record) :
    relation record.after final := by
  induction runs with
  | start => cases found
  | @snoc earlierHistory before after outcome earlier op completes inductionHypothesis =>
      by_cases old : position < earlierHistory.length
      · rw [List.getElem?_append_left old] at found
        exact trans _ _ _ (inductionHypothesis found) (step _ _ _ _ _ completes)
      · obtain ⟨inRange, equal⟩ := List.getElem?_eq_some_iff.mp found
        have last : position = earlierHistory.length := by
          simp only [List.length_append, List.length_singleton] at inRange
          omega
        subst last
        simp only [List.getElem_concat_length] at equal
        subst equal
        exact refl _

/-- The same relation between an earlier and a later record. -/
theorem between {relation : Shared ι σ ε → Shared ι σ ε → Prop}
    (runs : RunsTo admits program start history final) (refl : ∀ shared, relation shared shared)
    (trans : ∀ first second third, relation first second → relation second third →
      relation first third)
    (step : ∀ op call before outcome after,
      (program op).Completes admits call before outcome after → relation before after)
    {left right : ℕ} (order : left < right) {earlier later : Record Op ι σ ε φ α}
    (leftFound : history[left]? = some earlier) (rightFound : history[right]? = some later) :
    relation earlier.after later.before := by
  have reached := (runs.record rightFound).1
  have stillFound : (history.take right)[left]? = some earlier := by
    rw [List.getElem?_take_of_lt order]
    exact leftFound
  exact reached.since refl trans step stillFound

/-- The journal of the first state is continued by that of the second. -/
def Continues (before after : Shared ι σ ε) : Prop := before.journal <+: after.journal

theorem continues_between (runs : RunsTo admits program start history final) {left right : ℕ}
    (order : left < right) {earlier later : Record Op ι σ ε φ α}
    (leftFound : history[left]? = some earlier) (rightFound : history[right]? = some later) :
    Continues earlier.after later.before := by
  have refl : ∀ shared : Shared ι σ ε, Continues shared shared := fun _ => List.prefix_refl _
  have trans : ∀ first second third : Shared ι σ ε, Continues first second →
      Continues second third → Continues first third := fun _ _ _ => List.IsPrefix.trans
  have step : ∀ op call before outcome after,
      (program op).Completes admits call before outcome after → Continues before after :=
    fun _ _ _ _ _ completes => completes.journal_prefix
  exact runs.between refl trans step order leftFound rightFound

/-- Execute a list of operations, each with one input for all its steps. -/
def executeAll (admits : Shared ι σ ε → ℕ → ι → List ε → Prop)
    [∀ shared call input events, Decidable (admits shared call input events)]
    (program : Op → Program ι σ ε φ α) :
    List (Op × ι) → List (Record Op ι σ ε φ α) → Shared ι σ ε →
      Option (List (Record Op ι σ ε φ α) × Shared ι σ ε)
  | [], history, shared => some (history, shared)
  | (op, input) :: rest, history, shared =>
      match (program op).execute admits history.length (fun _ => input) shared with
      | some (outcome, after) =>
          executeAll admits program rest (history ++ [⟨op, shared, outcome, after⟩]) after
      | none => none

theorem of_executeAll
    [∀ shared call input events, Decidable (admits shared call input events)]
    {operations : List (Op × ι)} {earlier : List (Record Op ι σ ε φ α)}
    {before : Shared ι σ ε} (reached : RunsTo admits program start earlier before)
    (executed : executeAll admits program operations earlier before = some (history, final)) :
    RunsTo admits program start history final := by
  induction operations generalizing earlier before with
  | nil =>
      simp only [executeAll, Option.some.injEq, Prod.mk.injEq] at executed
      obtain ⟨rfl, rfl⟩ := executed
      exact reached
  | cons head tail inductionHypothesis =>
      obtain ⟨op, input⟩ := head
      simp only [executeAll] at executed
      split at executed
      case h_1 outcome after done =>
        exact inductionHypothesis (reached.snoc op (Program.completes_of_execute done)) executed
      case h_2 => cases executed

end RunsTo

end AuthStartpack
