import AuthStartpack.Program.Core

/-!
Owns the uninterrupted runs of a program in which a fault may strike any step. A
step that is struck has no effect and ends the run with an exception, so this is
meant for programs that catch none. `Glides` says how a run ends that meets no
other exception: with a value after a known number of steps, or at the first
step that is struck.

The module names nothing of the modelled repository.
-/

namespace AuthStartpack.Program

variable {ι σ ε φ α β : Type}

/-- What a run has come to: at the position of the struck step, or of the next one. -/
structure Ended (σ φ α : Type) where
  outcome : Except φ α
  store : σ
  position : ℕ

/-- The inputs from here on, up to that position, are not struck. -/
def Clear (strikes : ι → Bool) (inputs : ℕ → ι) (low high : ℕ) : Prop :=
  ∀ position, low ≤ position → position < high → strikes (inputs position) = false

/-- The first input from here on that is struck. -/
structure FirstStruck (strikes : ι → Bool) (inputs : ℕ → ι) (low position : ℕ) : Prop where
  after : low ≤ position
  struck : strikes (inputs position) = true
  clear : Clear strikes inputs low position

section Positions

variable {strikes : ι → Bool} {inputs : ℕ → ι} {low middle high position : ℕ}

theorem Clear.append (first : Clear strikes inputs low middle)
    (second : Clear strikes inputs middle high) : Clear strikes inputs low high := by
  intro position after before
  by_cases early : position < middle
  · exact first position after early
  · exact second position (by omega) before

theorem FirstStruck.append (first : Clear strikes inputs low middle)
    (second : FirstStruck strikes inputs middle position) (ordered : low ≤ middle) :
    FirstStruck strikes inputs low position :=
  ⟨Nat.le_trans ordered second.after, second.struck, first.append second.clear⟩

theorem FirstStruck.unique {other : ℕ} (first : FirstStruck strikes inputs low position)
    (second : FirstStruck strikes inputs low other) : position = other := by
  rcases Nat.lt_trichotomy position other with less | same | more
  · have := second.clear position first.after less
    simp [first.struck] at this
  · exact same
  · have := first.clear other second.after more
    simp [second.struck] at this

theorem FirstStruck.not_clear (first : FirstStruck strikes inputs low position)
    (clear : Clear strikes inputs low high) : high ≤ position := by
  by_contra before
  have := clear position first.after (by omega)
  simp [first.struck] at this

end Positions

section Runs

variable (strikes : ι → Bool) (fault : φ) (inputs : ℕ → ι)

/-- The step at each position reads the input of that position. -/
def runStruck : Program ι σ ε φ α → ℕ → σ → Ended σ φ α
  | .done outcome, position, store => ⟨outcome, store, position⟩
  | .step act next, position, store =>
      if strikes (inputs position) then ⟨.error fault, store, position⟩
      else (next (inputs position) store).runStruck (position + 1) (act (inputs position) store).1

/-- The run ends so, with a value or with an exception. -/
def Ends (program : Program ι σ ε φ α) (position : ℕ) (store : σ)
    (post : Except φ α → σ → ℕ → Prop) : Prop :=
  let ended := program.runStruck strikes fault inputs position store
  post ended.outcome ended.store ended.position

variable {strikes fault inputs} {position : ℕ} {store : σ} {post : Except φ α → σ → ℕ → Prop}

theorem ends_step {act : ι → σ → σ × List ε} {next : ι → σ → Program ι σ ε φ α} :
    Ends strikes fault inputs (.step act next) position store post ↔
      if strikes (inputs position) then post (.error fault) store position
      else Ends strikes fault inputs (next (inputs position) store) (position + 1)
        (act (inputs position) store).1 post := by
  unfold Ends
  rw [runStruck]
  by_cases struck : strikes (inputs position) = true <;> simp [struck]

theorem ends_atomically {act : ι → σ → Except φ α × σ × List ε} :
    Ends strikes fault inputs (atomically act) position store post ↔
      if strikes (inputs position) then post (.error fault) store position
      else post (act (inputs position) store).1 (act (inputs position) store).2.1 (position + 1) :=
  ends_step

theorem ends_bind {program : Program ι σ ε φ β} {rest : β → Program ι σ ε φ α} :
    Ends strikes fault inputs (program >>= rest) position store post ↔
      Ends strikes fault inputs program position store fun outcome after reached =>
        match outcome with
        | .ok value => Ends strikes fault inputs (rest value) reached after post
        | .error exception => post (.error exception) after reached := by
  rw [bind_eq]
  induction program generalizing position store with
  | done outcome => cases outcome <;> exact Iff.rfl
  | step act next inductionHypothesis =>
      rw [Program.bind, ends_step, ends_step]
      by_cases struck : strikes (inputs position) = true
      · rw [if_pos struck, if_pos struck]
      · rw [if_neg struck, if_neg struck]
        exact inductionHypothesis _ _

theorem Ends.mono {program : Program ι σ ε φ α} {weaker : Except φ α → σ → ℕ → Prop}
    (ends : Ends strikes fault inputs program position store post)
    (weaken : ∀ outcome after reached, post outcome after reached → weaker outcome after reached) :
    Ends strikes fault inputs program position store weaker :=
  weaken _ _ _ ends

end Runs

/-! ### Runs without another exception -/

section Glides

variable (strikes : ι → Bool) (fault : φ) (inputs : ℕ → ι)

/-- The program returns after so many steps, unless one of them is struck before. -/
def Glides (program : Program ι σ ε φ α) (position count : ℕ) (store : σ) (post : α → σ → Prop)
    (failed : ℕ → σ → Prop) : Prop :=
  Ends strikes fault inputs program position store fun outcome after reached =>
    (∃ value, outcome = .ok value ∧ post value after ∧ reached = position + count ∧
      Clear strikes inputs position reached) ∨
    (outcome = .error fault ∧ failed reached after ∧ FirstStruck strikes inputs position reached ∧
      reached < position + count)

variable {strikes fault inputs} {position count : ℕ} {store : σ} {post : α → σ → Prop}
variable {failed : ℕ → σ → Prop}

theorem Glides.pure {value : α} (holds : post value store) :
    Glides strikes fault inputs (Pure.pure value : Program ι σ ε φ α) position 0 store
      post failed :=
  .inl ⟨value, rfl, holds, rfl, fun _ after before => absurd after (Nat.not_le.mpr before)⟩

theorem Glides.atomically {act : ι → σ → Except φ α × σ × List ε}
    (passes : ∃ value, (act (inputs position) store).1 = .ok value ∧
      post value (act (inputs position) store).2.1)
    (fails : failed position store) :
    Glides strikes fault inputs (atomically act) position 1 store post failed := by
  unfold Glides
  rw [ends_atomically]
  by_cases struck : strikes (inputs position) = true
  · rw [if_pos struck]
    exact .inr ⟨rfl, fails, ⟨Nat.le_refl _, struck, fun _ _ _ => by omega⟩, by omega⟩
  · rw [if_neg struck]
    obtain ⟨value, returns, holds⟩ := passes
    refine .inl ⟨value, returns, holds, rfl, ?_⟩
    intro other after before
    obtain rfl : other = position := by omega
    simpa using struck

theorem Glides.bind {program : Program ι σ ε φ β} {rest : β → Program ι σ ε φ α} {more : ℕ}
    {middle : β → σ → Prop}
    (first : Glides strikes fault inputs program position count store middle failed)
    (next : ∀ value after, middle value after →
      Glides strikes fault inputs (rest value) (position + count) more after post failed) :
    Glides strikes fault inputs (program >>= rest) position (count + more) store post failed := by
  unfold Glides
  rw [ends_bind]
  refine Ends.mono first ?_
  rintro outcome after reached (⟨value, rfl, holds, rfl, clear⟩ | ⟨rfl, fails, struck, before⟩)
  · refine Ends.mono (next value after holds) ?_
    rintro final later ended (⟨result, rfl, correct, rfl, calm⟩ | ⟨rfl, fails, struck, before⟩)
    · exact .inl ⟨result, rfl, correct, by omega, clear.append calm⟩
    · exact .inr ⟨rfl, fails, struck.append clear (by omega), by omega⟩
  · exact .inr ⟨rfl, fails, struck, by omega⟩

theorem Glides.map {program : Program ι σ ε φ β} {wrap : β → α} {made : β → σ → Prop}
    (glides : Glides strikes fault inputs program position count store made failed)
    (holds : ∀ value after, made value after → post (wrap value) after) :
    Glides strikes fault inputs
      (program >>= fun value => Pure.pure (wrap value)) position count store
      post failed :=
  .bind glides fun value after correct => .pure (holds value after correct)

end Glides

end AuthStartpack.Program
