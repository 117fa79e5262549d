import AuthStartpack.Program.Core

/-!
Owns the refinement of labelled transitions by what calls report. An abstract
system says which label may lead from which abstract state to which.
`Accounts allowed view before after` says that the events reported since then
are a path of the system from the view of the one state to that of the other,
so that an invariant of the system is one of every run that the events account
for, and a single step of a run is a step of the system.

The module names nothing of the modelled repository.
-/

namespace AuthStartpack

variable {α ε ι σ : Type}

/-- The labels, one after the other, lead from one abstract state to another. -/
inductive Leads (allowed : α → ε → α → Prop) : α → List ε → α → Prop
  | nil (state : α) : Leads allowed state [] state
  | cons {first second third : α} {label : ε} {labels : List ε} (step : allowed first label second)
      (rest : Leads allowed second labels third) : Leads allowed first (label :: labels) third

namespace Leads

variable {allowed : α → ε → α → Prop} {first second third : α} {labels : List ε}

theorem single {label : ε} (step : allowed first label second) :
    Leads allowed first [label] second :=
  .cons step (.nil second)

theorem append {more : List ε} (early : Leads allowed first labels second)
    (late : Leads allowed second more third) : Leads allowed first (labels ++ more) third := by
  induction early with
  | nil state => exact late
  | cons step rest inductionHypothesis => exact .cons step (inductionHypothesis late)

/-- Labels that need not lead anywhere. -/
theorem stay {state : α} (idle : ∀ label ∈ labels, allowed state label state) :
    Leads allowed state labels state := by
  induction labels with
  | nil => exact .nil state
  | cons label rest inductionHypothesis =>
      refine .cons (idle label List.mem_cons_self) (inductionHypothesis ?_)
      intro other member
      exact idle other (List.mem_cons_of_mem _ member)

theorem nil_iff : Leads allowed first [] second ↔ second = first := by
  constructor
  · intro leads
    cases leads
    rfl
  · rintro rfl
    exact .nil second

theorem single_iff {label : ε} : Leads allowed first [label] second ↔
    allowed first label second := by
  constructor
  · intro leads
    cases leads with
    | cons step rest =>
        cases rest
        exact step
  · exact single

/-- What every step keeps, under an invariant of the steps, every path keeps. -/
theorem keeps {holds : α → Prop} {relation : α → α → Prop} (refl : ∀ state, relation state state)
    (trans : ∀ first second third, relation first second → relation second third →
      relation first third)
    (step : ∀ before label after, holds before → allowed before label after →
      holds after ∧ relation before after)
    (leads : Leads allowed first labels second) (initial : holds first) :
    holds second ∧ relation first second := by
  induction leads with
  | nil state => exact ⟨initial, refl state⟩
  | cons once rest inductionHypothesis =>
      obtain ⟨held, related⟩ := step _ _ _ initial once
      obtain ⟨heldLast, relatedLast⟩ := inductionHypothesis held
      exact ⟨heldLast, trans _ _ _ related relatedLast⟩

end Leads

/-- The events reported between two shared states account for what became of the view. -/
def Accounts (allowed : α → ε → α → Prop) (view : σ → α) (before after : Shared ι σ ε) : Prop :=
  ∃ added, after.journal = before.journal ++ added ∧
    Leads allowed (view before.store) (added.map Entry.event) (view after.store)

namespace Accounts

variable {allowed : α → ε → α → Prop} {view : σ → α}

theorem refl (shared : Shared ι σ ε) : Accounts allowed view shared shared :=
  ⟨[], by simp, .nil _⟩

theorem trans (first second third : Shared ι σ ε) (early : Accounts allowed view first second)
    (late : Accounts allowed view second third) : Accounts allowed view first third := by
  obtain ⟨added, growth, leads⟩ := early
  obtain ⟨more, laterGrowth, laterLeads⟩ := late
  refine ⟨added ++ more, by rw [laterGrowth, growth, List.append_assoc], ?_⟩
  rw [List.map_append]
  exact leads.append laterLeads

/-- A step of a call is one of the system. -/
theorem advance_iff {shared : Shared ι σ ε} {call : ℕ} {input : ι} {outcome : σ × List ε} :
    Accounts allowed view shared (shared.advance call input outcome) ↔
      Leads allowed (view shared.store) outcome.2 (view outcome.1) := by
  have events : (outcome.2.map fun event => (⟨call, input, event⟩ : Entry ι ε)).map Entry.event =
      outcome.2 := by
    simp [Function.comp_def]
  constructor
  · rintro ⟨added, growth, leads⟩
    rw [Shared.advance_journal] at growth
    rw [← List.append_cancel_left growth, events] at leads
    exact leads
  · intro leads
    refine ⟨_, Shared.advance_journal _ _ _ _, ?_⟩
    rw [events]
    exact leads

/-- What every step of the system keeps, every run that is accounted for keeps. -/
theorem keeps {holds : α → Prop} {relation : α → α → Prop} (refl : ∀ state, relation state state)
    (trans : ∀ first second third, relation first second → relation second third →
      relation first third)
    (step : ∀ before label after, holds before → allowed before label after →
      holds after ∧ relation before after)
    {before after : Shared ι σ ε} (accounts : Accounts allowed view before after)
    (initial : holds (view before.store)) :
    holds (view after.store) ∧ relation (view before.store) (view after.store) := by
  obtain ⟨added, -, leads⟩ := accounts
  exact leads.keeps refl trans step initial

end Accounts

end AuthStartpack
