import Mathlib

/-!
Owns high-water marks: for each key the highest number accepted so far. A number
is accepted only above the mark, and becomes the mark. So no number of a key is
accepted twice, and no mark ever falls.

The module names nothing of the modelled repository.
-/

namespace AuthStartpack

/-- The mark of each key, and all acceptances in their order. -/
structure Marks (κ ν : Type) where
  highest : κ → Option ν
  accepted : List (κ × ν)

namespace Marks

variable {κ ν : Type} [DecidableEq κ] [LinearOrder ν]

/-- The number is above the mark of the key, if it has one. -/
def Above (marks : Marks κ ν) (key : κ) (number : ν) : Prop :=
  ∀ mark ∈ marks.highest key, mark < number

def accept (marks : Marks κ ν) (key : κ) (number : ν) : Marks κ ν where
  highest := Function.update marks.highest key (some number)
  accepted := marks.accepted ++ [(key, number)]

inductive Step (before : Marks κ ν) : Marks κ ν → Prop
  | accept (key : κ) (number : ν) (above : before.Above key number) :
      Step before (before.accept key number)

/-- Any number of acceptances. -/
abbrev Run : Marks κ ν → Marks κ ν → Prop := Relation.ReflTransGen Step

/-- Every number that was accepted is at most the mark, and none was accepted twice. -/
structure Sound (marks : Marks κ ν) : Prop where
  bounded : ∀ key number, (key, number) ∈ marks.accepted →
    ∃ mark ∈ marks.highest key, number ≤ mark
  once : marks.accepted.Nodup

theorem Sound.step {before after : Marks κ ν} (sound : Sound before) (step : Step before after) :
    Sound after := by
  cases step with
  | accept key number above =>
      have unseen : (key, number) ∉ before.accepted := by
        intro seen
        obtain ⟨mark, marked, reached⟩ := sound.bounded key number seen
        exact absurd (above mark marked) (not_lt.mpr reached)
      constructor
      · intro other accepted member
        rcases List.mem_append.mp member with old | new
        · by_cases same : other = key
          · subst same
            obtain ⟨mark, marked, reached⟩ := sound.bounded other accepted old
            refine ⟨number, by simp [Marks.accept], ?_⟩
            exact le_of_lt (lt_of_le_of_lt reached (above mark marked))
          · simp only [Marks.accept, Function.update_of_ne same]
            exact sound.bounded other accepted old
        · obtain ⟨rfl, rfl⟩ := Prod.mk.inj (List.mem_singleton.mp new)
          exact ⟨accepted, by simp [Marks.accept], le_refl _⟩
      · simp only [Marks.accept, List.nodup_append, List.nodup_singleton, true_and]
        refine ⟨sound.once, ?_⟩
        intro pair member other equal
        rw [List.mem_singleton.mp equal]
        rintro rfl
        exact unseen member

/-- The marks have not fallen. -/
def Raised (before after : Marks κ ν) : Prop :=
  ∀ key, ∀ mark ∈ before.highest key, ∃ later ∈ after.highest key, mark ≤ later

theorem Step.raised {before after : Marks κ ν} (step : Step before after) :
    before.Raised after := by
  cases step with
  | accept key number above =>
      intro other mark marked
      by_cases same : other = key
      · subst same
        exact ⟨number, by simp [Marks.accept], le_of_lt (above mark marked)⟩
      · refine ⟨mark, ?_, le_refl _⟩
        simpa only [Marks.accept, Function.update_of_ne same] using marked

theorem Run.sound {before after : Marks κ ν} (run : Run before after) (sound : Sound before) :
    Sound after := by
  induction run with
  | refl => exact sound
  | tail _ step inductionHypothesis => exact inductionHypothesis.step step

theorem Run.raised {before after : Marks κ ν} (run : Run before after) : before.Raised after := by
  induction run with
  | refl => exact fun _ mark marked => ⟨mark, marked, le_refl _⟩
  | tail _ step inductionHypothesis =>
      intro key mark marked
      obtain ⟨middle, middleMarked, reached⟩ := inductionHypothesis key mark marked
      obtain ⟨later, laterMarked, raised⟩ := step.raised key middle middleMarked
      exact ⟨later, laterMarked, le_trans reached raised⟩

/-- The numbers of a key were accepted in increasing order. -/
def Increasing (marks : Marks κ ν) : Prop :=
  marks.accepted.Pairwise fun earlier later => earlier.1 = later.1 → earlier.2 < later.2

theorem Step.increasing {before after : Marks κ ν} (step : Step before after)
    (sound : Sound before) (increasing : before.Increasing) : after.Increasing := by
  cases step with
  | accept key number above =>
      refine List.pairwise_append.mpr ⟨increasing, List.pairwise_singleton _ _, ?_⟩
      intro earlier member later new same
      rw [List.mem_singleton.mp new] at same ⊢
      obtain ⟨mark, marked, reached⟩ := sound.bounded earlier.1 earlier.2 member
      rw [same] at marked
      exact lt_of_le_of_lt reached (above mark marked)

theorem Run.increasing {before after : Marks κ ν} (run : Run before after) (sound : Sound before)
    (increasing : before.Increasing) : after.Increasing := by
  induction run with
  | refl => exact increasing
  | tail earlier step inductionHypothesis =>
      exact step.increasing (Run.sound earlier sound) inductionHypothesis

/-! ### Systems with marks -/

section Follows

variable {σ : Type} {tracks : Marks κ ν → σ → Prop}

/-- What happened between two states of a system, whose marks `tracks` tells, was a run of
acceptances. -/
def Follows (tracks : Marks κ ν → σ → Prop) (before after : σ) : Prop :=
  ∀ marks, tracks marks before → ∃ later, marks.Run later ∧ tracks later after

/-- Nothing was accepted. -/
theorem Follows.of_same {before after : σ}
    (same : ∀ marks, tracks marks before → tracks marks after) : Follows tracks before after :=
  fun marks tracked => ⟨marks, .refl, same marks tracked⟩

theorem Follows.refl (state : σ) : Follows tracks state state :=
  .of_same fun _ => id

theorem Follows.trans {first second third : σ} (early : Follows tracks first second)
    (late : Follows tracks second third) : Follows tracks first third := by
  intro marks tracked
  obtain ⟨middle, earlyRun, middleTracked⟩ := early marks tracked
  obtain ⟨later, lateRun, laterTracked⟩ := late middle middleTracked
  exact ⟨later, earlyRun.trans lateRun, laterTracked⟩

end Follows

end Marks

end AuthStartpack
