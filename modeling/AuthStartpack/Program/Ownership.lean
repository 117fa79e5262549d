import AuthStartpack.Program.Pool

/-!
Owns the ownership of drawn numbers. A store hands out numbers in increasing
order, and numbers occur in it as keys. A program that lets a number occur only
if it has drawn the number itself, and not a second time, never meets its own
number in the store, whatever the other calls of a pool do: `Program.Owns` is
checked for each program alone, and `Pool.run_owned` composes it.

The module names nothing of the modelled repository.
-/

namespace AuthStartpack

variable {ι σ ε φ α β : Type}

/-- The next number that a store hands out, and the numbers that occur in it. -/
structure Numbering (σ : Type) where
  next : σ → ℕ
  Used : σ → ℕ → Prop

namespace Numbering

variable (numbering : Numbering σ)

/-- Only numbers occur that were handed out. -/
def Sound (store : σ) : Prop :=
  ∀ number, numbering.Used store number → number < numbering.next store

/-- A number that was handed out and does not occur. -/
def Free (store : σ) (number : ℕ) : Prop :=
  number < numbering.next store ∧ ¬ numbering.Used store number

/-- A step of the owner of `own`, which owns `left` afterwards. -/
structure Spends (own left : ℕ → Prop) (before after : σ) : Prop where
  next : numbering.next before ≤ numbering.next after
  used : ∀ number, numbering.Used after number → numbering.Used before number ∨ own number
  owner : ∀ number, left number → own number ∨ numbering.next before ≤ number
  free : ∀ number, left number → numbering.Free after number

variable {numbering}

theorem Spends.sound {own left : ℕ → Prop} {before after : σ}
    (spends : numbering.Spends own left before after) (sound : numbering.Sound before)
    (free : ∀ number, own number → numbering.Free before number) : numbering.Sound after := by
  intro number used
  refine Nat.lt_of_lt_of_le ?_ spends.next
  rcases spends.used number used with old | mine
  · exact sound number old
  · exact (free number mine).1

/-- The numbers of another owner stay free. -/
theorem Spends.others_free {own left other : ℕ → Prop} {before after : σ}
    (spends : numbering.Spends own left before after)
    (apart : ∀ number, own number → ¬ other number)
    (free : ∀ number, other number → numbering.Free before number) :
    ∀ number, other number → numbering.Free after number := by
  intro number owned
  obtain ⟨given, unused⟩ := free number owned
  refine ⟨Nat.lt_of_lt_of_le given spends.next, ?_⟩
  intro used
  rcases spends.used number used with old | mine
  · exact unused old
  · exact apart number mine owned

end Numbering

/-! ### Programs -/

namespace Program

/-- In every store in which the numbers of `own` are free, each step of the program uses only
numbers that the program owns. -/
def Owns (numbering : Numbering σ) (post : Except φ α → (ℕ → Prop) → Prop) :
    Program ι σ ε φ α → (ℕ → Prop) → Prop
  | .done outcome, own => post outcome own
  | .step act next, own =>
      ∀ input store, numbering.Sound store → (∀ number, own number → numbering.Free store number) →
        ∃ left, numbering.Spends own left store (act input store).1 ∧
          (next input store).Owns numbering post left

section Rules

variable {numbering : Numbering σ} {own : ℕ → Prop}
variable {post weaker : Except φ α → (ℕ → Prop) → Prop}

theorem owns_mono {program : Program ι σ ε φ α} (owns : program.Owns numbering post own)
    (weakens : ∀ outcome left, post outcome left → weaker outcome left) :
    program.Owns numbering weaker own := by
  induction program generalizing own with
  | done outcome => exact weakens outcome own owns
  | step act next inductionHypothesis =>
      intro input store sound free
      obtain ⟨left, spends, rest⟩ := owns input store sound free
      exact ⟨left, spends, inductionHypothesis input store rest⟩

theorem owns_bind {program : Program ι σ ε φ α} {rest : α → Program ι σ ε φ β}
    {final : Except φ β → (ℕ → Prop) → Prop} (owns : program.Owns numbering post own)
    (continues : ∀ value left, post (.ok value) left → (rest value).Owns numbering final left)
    (throws : ∀ exception left, post (.error exception) left → final (.error exception) left) :
    (program >>= rest).Owns numbering final own := by
  rw [bind_eq]
  induction program generalizing own with
  | done outcome =>
      cases outcome with
      | ok value => exact continues value own owns
      | error exception => exact throws exception own owns
  | step act next inductionHypothesis =>
      intro input store sound free
      obtain ⟨left, spends, running⟩ := owns input store sound free
      exact ⟨left, spends, inductionHypothesis input store running⟩

theorem owns_tryCatch {program : Program ι σ ε φ α} {handler : φ → Program ι σ ε φ α}
    {final : Except φ α → (ℕ → Prop) → Prop} (owns : program.Owns numbering post own)
    (returns : ∀ value left, post (.ok value) left → final (.ok value) left)
    (handles : ∀ exception left, post (.error exception) left →
      (handler exception).Owns numbering final left) :
    (tryCatch program handler).Owns numbering final own := by
  change (program.catchWith handler).Owns numbering final own
  induction program generalizing own with
  | done outcome =>
      cases outcome with
      | ok value => exact returns value own owns
      | error exception => exact handles exception own owns
  | step act next inductionHypothesis =>
      intro input store sound free
      obtain ⟨left, spends, running⟩ := owns input store sound free
      exact ⟨left, spends, inductionHypothesis input store running⟩

theorem owns_atomically {act : ι → σ → Except φ α × σ × List ε}
    (step : ∀ input store, numbering.Sound store →
      (∀ number, own number → numbering.Free store number) →
      ∃ left, numbering.Spends own left store (act input store).2.1 ∧
        post (act input store).1 left) :
    (atomically act).Owns numbering post own :=
  fun input store sound free => step input store sound free

end Rules

end Program

/-! ### Pools -/

namespace Pool

variable {numbering : Numbering σ} {good : ℕ → Except φ α → Prop}

/-- Each call goes on with numbers that no other call owns. -/
structure Owned (numbering : Numbering σ) (good : ℕ → Except φ α → Prop) (pool : Pool ι σ ε φ α)
    (owner : ℕ → ℕ → Prop) : Prop where
  sound : numbering.Sound pool.shared.store
  free : ∀ call number, owner call number → numbering.Free pool.shared.store number
  apart : ∀ call other, call ≠ other → ∀ number, owner call number → ¬ owner other number
  owns : ∀ (call : ℕ) (program : Program ι σ ε φ α), pool.calls[call]? = some program →
    program.Owns numbering (fun outcome _ => good call outcome) (owner call)

/-- A step of a call spends numbers of the call. -/
theorem step_spends {pool : Pool ι σ ε φ α} {owner : ℕ → ℕ → Prop}
    (owned : pool.Owned numbering good owner) {call : ℕ} {act : ι → σ → σ × List ε}
    {next : ι → σ → Program ι σ ε φ α} (running : pool.calls[call]? = some (.step act next))
    (input : ι) :
    ∃ left, numbering.Spends (owner call) left pool.shared.store (act input pool.shared.store).1 ∧
      (pool.step call input).Owned numbering good (Function.update owner call left) := by
  obtain ⟨left, spends, rest⟩ :=
    owned.owns call _ running input pool.shared.store owned.sound (owned.free call)
  have othersFree : ∀ other, other ≠ call → ∀ number, owner other number →
      numbering.Free (act input pool.shared.store).1 number := by
    intro other different
    exact spends.others_free (owned.apart call other (Ne.symm different)) (owned.free other)
  -- What the call owns now, it owned before or has just drawn, after the draws of all others.
  have othersApart : ∀ other, other ≠ call → ∀ number, left number → ¬ owner other number := by
    intro other different number mine theirs
    rcases spends.owner number mine with kept | drawn
    · exact owned.apart call other (Ne.symm different) number kept theirs
    · exact Nat.not_lt_of_le drawn (owned.free other number theirs).1
  have stepped : pool.step call input =
      { shared := pool.shared.advance call input (act input pool.shared.store)
        calls := pool.calls.set call (next input pool.shared.store) } := by
    simp only [step, running]
  refine ⟨left, spends, ?_⟩
  rw [stepped]
  refine ⟨spends.sound owned.sound (owned.free call), ?_, ?_, ?_⟩
  · intro other number theirs
    by_cases same : other = call
    · subst same
      rw [Function.update_self] at theirs
      exact spends.free number theirs
    · rw [Function.update_of_ne same] at theirs
      exact othersFree other same number theirs
  · intro first second different number ofFirst ofSecond
    by_cases firstSame : first = call
    · subst firstSame
      rw [Function.update_self] at ofFirst
      rw [Function.update_of_ne (Ne.symm different)] at ofSecond
      exact othersApart second (Ne.symm different) number ofFirst ofSecond
    rw [Function.update_of_ne firstSame] at ofFirst
    by_cases secondSame : second = call
    · subst secondSame
      rw [Function.update_self] at ofSecond
      exact othersApart first firstSame number ofSecond ofFirst
    · rw [Function.update_of_ne secondSame] at ofSecond
      exact owned.apart first second different number ofFirst ofSecond
  · intro other program found
    by_cases same : other = call
    · subst same
      have position : other < pool.calls.length := (List.getElem?_eq_some_iff.mp running).1
      rw [List.getElem?_set_self position, Option.some.injEq] at found
      subst found
      rw [Function.update_self]
      exact rest
    · rw [List.getElem?_set_ne (Ne.symm same)] at found
      rw [Function.update_of_ne same]
      exact owned.owns other program found

theorem step_owned {pool : Pool ι σ ε φ α} {owner : ℕ → ℕ → Prop}
    (owned : pool.Owned numbering good owner) (call : ℕ) (input : ι) :
    ∃ later, (pool.step call input).Owned numbering good later := by
  by_cases running : ∃ act next, pool.calls[call]? = some (.step act next)
  · obtain ⟨act, next, running⟩ := running
    obtain ⟨left, -, stillOwned⟩ := step_spends owned running input
    exact ⟨_, stillOwned⟩
  · rw [step_idle input running]
    exact ⟨owner, owned⟩

/-- A number that was handed out and that nobody owns. -/
structure Retired (numbering : Numbering σ) (pool : Pool ι σ ε φ α) (owner : ℕ → ℕ → Prop)
    (number : ℕ) : Prop where
  given : number < numbering.next pool.shared.store
  unowned : ∀ call, ¬ owner call number

theorem Owned.retired_of_used {pool : Pool ι σ ε φ α} {owner : ℕ → ℕ → Prop}
    (owned : pool.Owned numbering good owner) {number : ℕ}
    (used : numbering.Used pool.shared.store number) : pool.Retired numbering owner number where
  given := owned.sound number used
  unowned call theirs := (owned.free call number theirs).2 used

/-- A retired number stays retired, and no step uses it anew. -/
theorem step_retired {pool : Pool ι σ ε φ α} {owner : ℕ → ℕ → Prop}
    (owned : pool.Owned numbering good owner) (call : ℕ) (input : ι) :
    ∃ later, (pool.step call input).Owned numbering good later ∧
      ∀ number, pool.Retired numbering owner number →
        (pool.step call input).Retired numbering later number ∧
          (numbering.Used (pool.step call input).shared.store number →
            numbering.Used pool.shared.store number) := by
  by_cases running : ∃ act next, pool.calls[call]? = some (.step act next)
  · obtain ⟨act, next, running⟩ := running
    obtain ⟨left, spends, stillOwned⟩ := step_spends owned running input
    have stepped : (pool.step call input).shared.store = (act input pool.shared.store).1 := by
      simp only [step, running, Shared.advance_store]
    refine ⟨_, stillOwned, fun number retired => ⟨⟨?_, ?_⟩, ?_⟩⟩
    · rw [stepped]
      exact Nat.lt_of_lt_of_le retired.given spends.next
    · intro other theirs
      by_cases same : other = call
      · subst same
        rw [Function.update_self] at theirs
        rcases spends.owner number theirs with kept | drawn
        · exact retired.unowned other kept
        · exact Nat.not_lt_of_le drawn retired.given
      · rw [Function.update_of_ne same] at theirs
        exact retired.unowned other theirs
    · intro used
      rw [stepped] at used
      rcases spends.used number used with old | mine
      · exact old
      · exact absurd mine (retired.unowned call)
  · rw [step_idle input running]
    exact ⟨owner, owned, fun _ retired => ⟨retired, id⟩⟩

theorem run_owned {pool : Pool ι σ ε φ α} {owner : ℕ → ℕ → Prop}
    (owned : pool.Owned numbering good owner) (schedule : List (ℕ × ι)) :
    ∃ later, (pool.run schedule).Owned numbering good later := by
  induction schedule generalizing pool owner with
  | nil => exact ⟨owner, owned⟩
  | cons head tail inductionHypothesis =>
      obtain ⟨call, input⟩ := head
      obtain ⟨stepped, stillOwned⟩ := step_owned owned call input
      exact inductionHypothesis stillOwned

/-- Before the calls begin, they own nothing. -/
theorem owned_of_owns {pool : Pool ι σ ε φ α} (sound : numbering.Sound pool.shared.store)
    (owns : ∀ (call : ℕ) (program : Program ι σ ε φ α), pool.calls[call]? = some program →
      program.Owns numbering (fun outcome _ => good call outcome) fun _ => False) :
    pool.Owned numbering good fun _ _ => False where
  sound := sound
  free _ _ owned := owned.elim
  apart _ _ _ _ owned := owned.elim
  owns := owns

/-- What every call that owns its numbers ends with. -/
theorem Owned.outcome {pool : Pool ι σ ε φ α} {owner : ℕ → ℕ → Prop}
    (owned : pool.Owned numbering good owner) {call : ℕ} {outcome : Except φ α}
    (ended : pool.outcome? call = some outcome) : good call outcome :=
  owned.owns call _ (outcome?_eq_some.mp ended)

end Pool

end AuthStartpack
