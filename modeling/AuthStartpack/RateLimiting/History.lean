import AuthStartpack.Services.RateLimiting.RedisRateLimitStore

/-!
Owns the limiters on one key and histories of calls on it: the key that a
history leaves and the calls that it granted. Server time never runs backwards
in a history, and what one call preserves holds after all of them.
-/

namespace AuthStartpack.RateLimiting

open RedisRateLimitStore

/-- A call on the key: the millisecond of server time, and the permits it asks for. -/
structure Call where
  now : ℕ
  permits : ℕ
deriving DecidableEq, Repr

/-! ### Limiters -/

/-- The limiter of a fixed window, on one key of a server that keeps keys for `lag` milliseconds
longer than they have to live. -/
def fixed (lag permitLimit : ℕ) (window : TimeSpan) (call : Call) (key : Option (Redis.Key ℕ)) :
    Option (Redis.Key ℕ) × RedisRateLimitDecision :=
  acquireFixedWindowAsync lag permitLimit call.permits window call.now key

/-- The limiter of a sliding window. -/
def sliding (lag permitLimit : ℕ) (window : TimeSpan) (segmentsPerWindow : ℕ) (call : Call)
    (key : Option (Redis.Key Redis.Hash)) :
    Option (Redis.Key Redis.Hash) × RedisRateLimitDecision :=
  acquireSlidingWindowAsync lag permitLimit call.permits window segmentsPerWindow call.now key

/-- A limiter, with the kind of value that its script keeps under the key. -/
structure Limiter where
  Kept : Type
  acquire : Call → Option (Redis.Key Kept) → Option (Redis.Key Kept) × RedisRateLimitDecision

/-- `AcquireCoreAsync` of `RedisWindowRateLimiter`. -/
def acquireCoreAsync (lag permitLimit : ℕ) (window : TimeSpan) (segmentsPerWindow : ℕ) : Limiter :=
  if segmentsPerWindow = 1 then ⟨ℕ, fixed lag permitLimit window⟩
  else ⟨Redis.Hash, sliding lag permitLimit window segmentsPerWindow⟩

/-- The limiter of the general policy. -/
def generalLimiter (lag : ℕ) (options : RateLimitOptions) : Limiter :=
  acquireCoreAsync lag options.general.permitLimit options.general.window
    options.generalSegmentsPerWindow

section General

variable {lag : ℕ} {options : RateLimitOptions}

theorem generalLimiter_of_one (one : options.generalSegmentsPerWindow = 1) :
    generalLimiter lag options =
      ⟨ℕ, fixed lag options.general.permitLimit options.general.window⟩ :=
  if_pos one

theorem generalLimiter_of_several (several : options.generalSegmentsPerWindow ≠ 1) :
    generalLimiter lag options =
      ⟨Redis.Hash, sliding lag options.general.permitLimit options.general.window
        options.generalSegmentsPerWindow⟩ :=
  if_neg several

end General

/-! ### Histories -/

/-- The condition of both scripts on the permits that are counted already. -/
def Admits (permits limit counted : ℕ) : Prop :=
  (permits = 0 ∧ counted < limit) ∨ (0 < permits ∧ counted + permits ≤ limit)

instance (permits limit counted : ℕ) : Decidable (Admits permits limit counted) :=
  inferInstanceAs (Decidable (_ ∨ _))

theorem milliseconds_pos (window : TimeSpan) : 0 < milliseconds window :=
  Nat.lt_of_lt_of_le Nat.one_pos (le_max_left _ _)

/-- The permits of all these calls. -/
def permits (calls : List Call) : ℕ := (calls.map Call.permits).sum

/-- The time of the server does not decrease. -/
def Ordered (history : List Call) : Prop := history.Pairwise fun earlier later =>
    earlier.now ≤ later.now

instance (history : List Call) : Decidable (Ordered history) :=
  inferInstanceAs (Decidable (history.Pairwise _))

/-- Every history is in the past at some time. -/
theorem exists_past (history : List Call) : ∃ now, ∀ call ∈ history, call.now ≤ now := by
  induction history with
  | nil => exact ⟨0, by simp⟩
  | cons head tail inductionHypothesis =>
      obtain ⟨now, past⟩ := inductionHypothesis
      refine ⟨max head.now now, List.forall_mem_cons.mpr ⟨le_max_left _ _, ?_⟩⟩
      intro call member
      exact le_trans (past call member) (le_max_right _ _)

/-- The key after some calls, and those of them that were granted. -/
structure Served (α : Type) where
  key : Option (Redis.Key α)
  granted : List Call

section Permits

variable {calls : List Call} {call : Call}

@[simp]
theorem permits_nil : permits [] = 0 := rfl

theorem permits_cons : permits (call :: calls) = call.permits + permits calls := by
  simp [permits]

theorem permits_append (more : List Call) :
    permits (calls ++ more) = permits calls + permits more := by
  simp [permits]

theorem permits_filter_le (pred : Call → Bool) : permits (calls.filter pred) ≤ permits calls := by
  induction calls with
  | nil => exact Nat.le_refl 0
  | cons head tail inductionHypothesis =>
      rw [List.filter_cons, permits_cons]
      split
      · rw [permits_cons]
        omega
      · omega

theorem permits_replicate (count : ℕ) :
    permits (List.replicate count call) = count * call.permits := by
  simp [permits]

/-- Fewer calls have fewer permits. -/
theorem permits_filter_mono {fewer more : Call → Bool}
    (implies : ∀ call ∈ calls, fewer call = true → more call = true) :
    permits (calls.filter fewer) ≤ permits (calls.filter more) := by
  have sublist : calls.filter fewer = (calls.filter more).filter fewer := by
    rw [List.filter_filter]
    apply List.filter_congr
    intro call member
    cases keeps : fewer call with
    | false => rfl
    | true => simp [implies call member keeps]
  rw [sublist]
  exact permits_filter_le _

end Permits

section Serving

variable {α : Type}
  (acquire : Call → Option (Redis.Key α) → Option (Redis.Key α) × RedisRateLimitDecision)

def Served.serve (served : Served α) (call : Call) : Served α :=
  ⟨(acquire call served.key).1,
    if (acquire call served.key).2.isAcquired then served.granted ++ [call] else served.granted⟩

theorem permits_serve (served : Served α) (call : Call) :
    permits (served.serve acquire call).granted = permits served.granted +
      if (acquire call served.key).2.isAcquired = true then call.permits else 0 := by
  unfold Served.serve
  by_cases acquired : (acquire call served.key).2.isAcquired = true
  · rw [if_pos acquired, if_pos acquired, permits_append, permits_cons, permits_nil, Nat.add_zero]
  · rw [if_neg acquired, if_neg acquired, Nat.add_zero]

/-- The calls of a history, one after the other on this key. -/
def serveFrom (key : Option (Redis.Key α)) (history : List Call) : Served α :=
  history.foldl (Served.serve acquire) ⟨key, []⟩

/-- The calls of a history on a key that does not exist yet. -/
def serveAll (history : List Call) : Served α := serveFrom acquire none history

theorem serveFrom_concat (key : Option (Redis.Key α)) (history : List Call) (call : Call) :
    serveFrom acquire key (history ++ [call]) =
      (serveFrom acquire key history).serve acquire call := by
  simp [serveFrom]

theorem serveAll_concat (history : List Call) (call : Call) :
    serveAll acquire (history ++ [call]) = (serveAll acquire history).serve acquire call :=
  serveFrom_concat acquire none history call

/-- What every call of a history keeps holds after it. -/
theorem serveFrom_induction {Invariant : Served α → Prop} {key : Option (Redis.Key α)}
    {history : List Call} (initially : Invariant ⟨key, []⟩)
    (serves : ∀ served, ∀ call ∈ history, Invariant served →
      Invariant (served.serve acquire call)) : Invariant (serveFrom acquire key history) := by
  induction history using List.reverseRecOn with
  | nil => exact initially
  | append_singleton history call inductionHypothesis =>
      rw [serveFrom_concat]
      apply serves _ call (by simp)
      apply inductionHypothesis
      intro served earlier member
      exact serves served earlier (List.mem_append_left _ member)

/-- What holds without calls, survives waiting and is kept by every call holds after a history, at
any time from its last call on. -/
theorem invariant_of_serve {Invariant : ℕ → Served α → Prop}
    (initially : ∀ now, Invariant now ⟨none, []⟩)
    (waits : ∀ now later served, now ≤ later → Invariant now served → Invariant later served)
    (serves : ∀ served call, Invariant call.now served →
      Invariant call.now (served.serve acquire call))
    {history : List Call} (ordered : Ordered history) {now : ℕ}
    (past : ∀ call ∈ history, call.now ≤ now) : Invariant now (serveAll acquire history) := by
  induction history using List.reverseRecOn generalizing now with
  | nil => exact initially now
  | append_singleton history call inductionHypothesis =>
      obtain ⟨before, -, between⟩ := List.pairwise_append.mp ordered
      have reached : Invariant call.now (serveAll acquire history) :=
        inductionHypothesis before fun earlier member => between earlier member call (.head _)
      rw [serveAll_concat]
      apply waits call.now now _ (past call (by simp))
      exact serves _ _ reached

end Serving

end AuthStartpack.RateLimiting
