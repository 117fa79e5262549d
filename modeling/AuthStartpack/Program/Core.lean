import Mathlib.Logic.Relation
import Mathlib.Data.List.Basic
import Mathlib.Data.List.Pairwise

/-!
Owns the programs of this development: computations that act on a store shared
with other computations, one indivisible step at a time. A step reads an input
of its environment (a clock reading, whether a fault strikes) and the store,
rewrites the store and reports events. A program ends with a value or with an
exception.

The module names nothing of the modelled repository. It does not own the
interleavings (`Program.Pool`) or the uninterrupted runs (`Program.Sequential`).
-/

namespace AuthStartpack

/-- A computation over the shared store `σ`. Between two of its steps any other
computation may take steps of its own. -/
inductive Program (ι σ ε φ α : Type)
  | done (outcome : Except φ α)
  | step (act : ι → σ → σ × List ε) (next : ι → σ → Program ι σ ε φ α)

namespace Program

variable {ι σ ε φ α β γ : Type}

/-- Continue with `rest` once `program` has returned a value; an exception ends it. -/
def bind (program : Program ι σ ε φ α) (rest : α → Program ι σ ε φ β) : Program ι σ ε φ β :=
  match program with
  | .done (.ok value) => rest value
  | .done (.error exception) => .done (.error exception)
  | .step act next => .step act fun input store => (next input store).bind rest

/-- Continue with `handler` once `program` has thrown. -/
def catchWith (program : Program ι σ ε φ α) (handler : φ → Program ι σ ε φ α) :
    Program ι σ ε φ α :=
  match program with
  | .done (.ok value) => .done (.ok value)
  | .done (.error exception) => handler exception
  | .step act next => .step act fun input store => (next input store).catchWith handler

instance : Monad (Program ι σ ε φ) where
  pure value := .done (.ok value)
  bind := Program.bind

instance : MonadExcept φ (Program ι σ ε φ) where
  throw exception := .done (.error exception)
  tryCatch := Program.catchWith

/-- The program of one indivisible step. -/
def atomically (act : ι → σ → Except φ α × σ × List ε) : Program ι σ ε φ α :=
  .step (fun input store => (act input store).2) fun input store => .done (act input store).1

theorem bind_eq (program : Program ι σ ε φ α) (rest : α → Program ι σ ε φ β) :
    program >>= rest = program.bind rest := rfl

theorem pure_bind (value : α) (rest : α → Program ι σ ε φ β) :
    pure value >>= rest = rest value := rfl

theorem bind_assoc (program : Program ι σ ε φ α) (first : α → Program ι σ ε φ β)
    (second : β → Program ι σ ε φ γ) :
    program >>= first >>= second = program >>= fun value => first value >>= second := by
  simp only [bind_eq]
  induction program with
  | done outcome => cases outcome <;> rfl
  | step act next inductionHypothesis =>
      simp only [Program.bind]
      congr 1
      funext input store
      exact inductionHypothesis input store

end Program

/-! ### The shared state -/

/-- One line of the journal: the call that took a step, its input and what the step reported. -/
structure Entry (ι ε : Type) where
  call : ℕ
  input : ι
  event : ε
deriving DecidableEq, Repr

/-- The store together with the journal of all events so far and the last input. -/
structure Shared (ι σ ε : Type) where
  store : σ
  journal : List (Entry ι ε)
  last : ι
deriving DecidableEq, Repr

namespace Shared

variable {ι σ ε : Type}

/-- The shared state after `call` took a step with this outcome. -/
def advance (shared : Shared ι σ ε) (call : ℕ) (input : ι) (outcome : σ × List ε) :
    Shared ι σ ε where
  store := outcome.1
  journal := shared.journal ++ outcome.2.map fun event => ⟨call, input, event⟩
  last := input

section Advance

variable (shared : Shared ι σ ε) (call : ℕ) (input : ι) (outcome : σ × List ε)

@[simp]
theorem advance_store : (shared.advance call input outcome).store = outcome.1 := rfl

@[simp]
theorem advance_last : (shared.advance call input outcome).last = input := rfl

@[simp]
theorem advance_journal :
    (shared.advance call input outcome).journal =
      shared.journal ++ outcome.2.map fun event => ⟨call, input, event⟩ := rfl

end Advance

/-- The state after a step that left the store alone and reported nothing. -/
def observed (shared : Shared ι σ ε) (input : ι) : Shared ι σ ε := { shared with last := input }

section Observed

variable (shared : Shared ι σ ε) (call : ℕ) (input : ι)

@[simp]
theorem observed_store : (shared.observed input).store = shared.store := rfl

@[simp]
theorem observed_journal : (shared.observed input).journal = shared.journal := rfl

@[simp]
theorem observed_last : (shared.observed input).last = input := rfl

theorem advance_silent : shared.advance call input (shared.store, []) = shared.observed input := by
  simp [advance, observed]

end Observed

/-- The journal has only grown, by entries of calls other than `call`. -/
def Untouched (call : ℕ) (before after : Shared ι σ ε) : Prop :=
  ∃ added, after.journal = before.journal ++ added ∧ ∀ entry ∈ added, entry.call ≠ call

theorem Untouched.refl (call : ℕ) (shared : Shared ι σ ε) : Untouched call shared shared :=
  ⟨[], by simp, by simp⟩

theorem Untouched.trans {call : ℕ} {first second third : Shared ι σ ε}
    (left : Untouched call first second) (right : Untouched call second third) :
    Untouched call first third := by
  obtain ⟨early, earlyGrowth, earlyOther⟩ := left
  obtain ⟨late, lateGrowth, lateOther⟩ := right
  refine ⟨early ++ late, by rw [lateGrowth, earlyGrowth, List.append_assoc], ?_⟩
  intro entry member
  rcases List.mem_append.mp member with inEarly | inLate
  · exact earlyOther entry inEarly
  · exact lateOther entry inLate

theorem untouched_advance {call other : ℕ} (different : other ≠ call) (shared : Shared ι σ ε)
    (input : ι) (outcome : σ × List ε) :
    Untouched call shared (shared.advance other input outcome) := by
  refine ⟨_, rfl, ?_⟩
  intro entry member
  obtain ⟨event, -, rfl⟩ := List.mem_map.mp member
  exact different

/-- An entry of `call` seen later was there before the others acted. -/
theorem Untouched.mem_of_own {call : ℕ} {before after : Shared ι σ ε}
    (untouched : Untouched call before after) {entry : Entry ι ε}
    (member : entry ∈ after.journal) (own : entry.call = call) : entry ∈ before.journal := by
  obtain ⟨added, growth, other⟩ := untouched
  rw [growth] at member
  rcases List.mem_append.mp member with old | new
  · exact old
  · exact absurd own (other entry new)

/-- What the steps of `call` have reported. -/
def eventsOf (call : ℕ) (shared : Shared ι σ ε) : List ε :=
  (shared.journal.filter (·.call = call)).map (·.event)

theorem eventsOf_advance (call : ℕ) (shared : Shared ι σ ε) (input : ι) (outcome : σ × List ε) :
    (shared.advance call input outcome).eventsOf call = shared.eventsOf call ++ outcome.2 := by
  have own : ∀ events : List ε,
      ((events.map fun event => (⟨call, input, event⟩ : Entry ι ε)).filter (·.call = call)).map
        (·.event) = events := by
    intro events
    rw [List.filter_eq_self.mpr (by simp)]
    simp [Function.comp_def]
  simp only [eventsOf, advance_journal, List.filter_append, List.map_append, own]

theorem Untouched.eventsOf {call : ℕ} {before after : Shared ι σ ε}
    (untouched : Untouched call before after) : after.eventsOf call = before.eventsOf call := by
  obtain ⟨added, growth, other⟩ := untouched
  have none : added.filter (·.call = call) = [] := by
    rw [List.filter_eq_nil_iff]
    intro entry member
    simpa using other entry member
  simp only [Shared.eventsOf, growth, List.filter_append, none, List.append_nil]

theorem mem_eventsOf {call : ℕ} {shared : Shared ι σ ε} {event : ε} :
    event ∈ shared.eventsOf call ↔ ∃ entry ∈ shared.journal, entry.call = call ∧
      entry.event = event := by
  simp [eventsOf, and_assoc]

/-- Where a key of the journal occurs only once, it has one entry. -/
theorem entry_eq_of_nodup {κ : Type} {shared : Shared ι σ ε} {key? : Entry ι ε → Option κ}
    (once : (shared.journal.filterMap key?).Nodup) {left right : Entry ι ε} {key : κ}
    (leftMember : left ∈ shared.journal) (rightMember : right ∈ shared.journal)
    (leftKey : key? left = some key) (rightKey : key? right = some key) : left = right := by
  by_contra different
  let Apart (first second : Entry ι ε) : Prop :=
    ∀ one, key? first = some one → ∀ other, key? second = some other → one ≠ other
  have symmetric : Std.Symm Apart :=
    ⟨fun _ _ differs one ofFirst other ofSecond => (differs other ofSecond one ofFirst).symm⟩
  have apart : shared.journal.Pairwise Apart := List.pairwise_filterMap.mp once
  exact apart.forall leftMember rightMember different key leftKey key rightKey rfl

end Shared

end AuthStartpack
