import Mathlib.Data.List.Perm.Basic

/-!
Owns serial orders: what calls come to that take effect one after the other. A
call that would have had no effect in some state that an order passes through
can be put there without changing what the order comes to.

The module names nothing of the modelled repository.
-/

namespace AuthStartpack

variable {κ ι τ : Type}

/-- The state once the calls of `order`, each with its input, have taken effect in turn. -/
def serially (effect : ι → τ → τ) (start : τ) (order : List (κ × ι)) : τ :=
  order.foldl (fun state entry => effect entry.2 state) start

section Orders

variable {effect : ι → τ → τ} {start : τ}

@[simp]
theorem serially_nil : serially effect start ([] : List (κ × ι)) = start := rfl

@[simp]
theorem serially_cons (entry : κ × ι) (order : List (κ × ι)) :
    serially effect start (entry :: order) = serially effect (effect entry.2 start) order := rfl

@[simp]
theorem serially_append (early late : List (κ × ι)) :
    serially effect start (early ++ late) = serially effect (serially effect start early) late :=
  List.foldl_append

/-- The names of the calls play no part. -/
theorem serially_map {name : Type} (rename : κ → name) (order : List (κ × ι)) :
    serially effect start (order.map fun entry => (rename entry.1, entry.2)) =
      serially effect start order := by
  simp [serially, List.foldl_map]

/-- The order passes through this state. -/
def Passes (effect : ι → τ → τ) (start : τ) (order : List (κ × ι)) (state : τ) : Prop :=
  ∃ early late, order = early ++ late ∧ serially effect start early = state

theorem Passes.of_prefix {early order : List (κ × ι)} (isEarly : early <+: order) :
    Passes effect start order (serially effect start early) := by
  obtain ⟨late, equal⟩ := isEarly
  exact ⟨early, late, equal.symm, rfl⟩

/-- A call without effect in a state on the way finds a place there. -/
theorem Passes.insert {order : List (κ × ι)} {state : τ} (passes : Passes effect start order state)
    {entry : κ × ι} (idle : effect entry.2 state = state) :
    ∃ wider, wider.Perm (entry :: order) ∧
      serially effect start wider = serially effect start order ∧
      ∀ other, Passes effect start order other → Passes effect start wider other := by
  obtain ⟨early, late, rfl, rfl⟩ := passes
  refine ⟨early ++ entry :: late, List.perm_middle, ?_, ?_⟩
  · simp [idle]
  · rintro other ⟨front, back, equal, rfl⟩
    rcases List.append_eq_append_iff.mp equal with ⟨middle, rfl, rfl⟩ | ⟨middle, rfl, rfl⟩
    · exact ⟨early ++ entry :: middle, back, by simp, by simp [idle]⟩
    · exact ⟨front, middle ++ entry :: late, by simp, rfl⟩

/-- So do any number of such calls. -/
theorem Passes.insertAll {idle order : List (κ × ι)}
    (each : ∀ entry ∈ idle, ∃ state, Passes effect start order state ∧
      effect entry.2 state = state) :
    ∃ wider, wider.Perm (idle ++ order) ∧
      serially effect start wider = serially effect start order := by
  induction idle generalizing order with
  | nil => exact ⟨order, .refl _, rfl⟩
  | cons head tail inductionHypothesis =>
      obtain ⟨state, passes, unchanged⟩ := each head (List.mem_cons_self)
      obtain ⟨middle, permutes, same, stillPasses⟩ := passes.insert unchanged
      have remaining : ∀ entry ∈ tail, ∃ state, Passes effect start middle state ∧
          effect entry.2 state = state := by
        intro entry member
        obtain ⟨other, passesOther, idleThere⟩ := each entry (List.mem_cons_of_mem _ member)
        exact ⟨other, stillPasses other passesOther, idleThere⟩
      obtain ⟨wider, widerPermutes, widerSame⟩ := inductionHypothesis remaining
      refine ⟨wider, ?_, widerSame.trans same⟩
      have inserted : wider.Perm (tail ++ head :: order) :=
        widerPermutes.trans (permutes.append_left tail)
      exact inserted.trans List.perm_middle

end Orders

end AuthStartpack
