import AuthStartpack.RateLimiting.History

/-!
Owns the fixed window of the limiter: the counter of a key, which gets its time
to live when a call creates it and keeps it until it is lost, so that no key
stays for ever and each one grants at most the limit.
-/

namespace AuthStartpack.RateLimiting

open RedisRateLimitStore

section Script

variable {permits limit window now : ℕ}

theorem fixedWindowScript_isAcquired {key : Option (Redis.Key ℕ)} :
    (decision (fixedWindowScript permits limit window now key).2).isAcquired = true ↔
      Admits permits limit ((Redis.get key).getD 0) := by
  change decide ((if Admits permits limit ((Redis.get key).getD 0) then (1 : ℤ) else 0) = 1) = true
    ↔ _
  rw [decide_eq_true_iff]
  split <;> simp_all

theorem fixedWindowScript_key {key : Option (Redis.Key ℕ)} :
    (fixedWindowScript permits limit window now key).1 =
      if Admits permits limit ((Redis.get key).getD 0) ∧ 0 < permits then
        if (Redis.incrBy permits key).value = permits then
          Redis.pexpire now window (some (Redis.incrBy permits key))
        else some (Redis.incrBy permits key)
      else key := by
  change (if Admits permits limit ((Redis.get key).getD 0) ∧ 0 < permits then _ else _ :
    Option (Redis.Key ℕ) × ℕ).1 = _
  split
  · rfl
  · rfl

/-- The delay of a rejected call is what is left of the key's time to live, or else a window. -/
theorem fixedWindowScript_of_rejected {key : Option (Redis.Key ℕ)}
    (rejected : ¬ Admits permits limit ((Redis.get key).getD 0)) :
    (fixedWindowScript permits limit window now key).1 = key ∧
      (decision (fixedWindowScript permits limit window now key).2).retryAfter =
        if Redis.pttl now key < 1 then window else (Redis.pttl now key).toNat := by
  have same : (fixedWindowScript permits limit window now key).1 = key := by
    rw [fixedWindowScript_key, if_neg fun both => rejected both.1]
  refine ⟨same, ?_⟩
  change (max 0 (if Admits permits limit ((Redis.get key).getD 0) then (0 : ℤ) else
    if Redis.pttl now (fixedWindowScript permits limit window now key).1 < 1 then (window : ℤ)
    else Redis.pttl now (fixedWindowScript permits limit window now key).1)).toNat = _
  rw [if_neg rejected, same]
  split <;> omega

end Script

section Fixed

variable {lag limit now later : ℕ} {window : TimeSpan} {call : Call} {key : Option (Redis.Key ℕ)}

theorem fixed_isAcquired (lag limit : ℕ) (window : TimeSpan) (call : Call)
    (key : Option (Redis.Key ℕ)) :
    (fixed lag limit window call key).2.isAcquired = true ↔
      Admits call.permits limit ((Redis.get (Redis.find lag call.now key)).getD 0) :=
  fixedWindowScript_isAcquired

/-- The counter of a key is positive and does not exceed the limit, and the key has a time to
live. -/
def Expiring (limit : ℕ) (key : Option (Redis.Key ℕ)) : Prop :=
  ∀ stored, key = some stored →
    0 < stored.value ∧ stored.value ≤ limit ∧ ∃ expiresAt, stored.expiresAt = some expiresAt

theorem Expiring.find (lag now : ℕ) (expiring : Expiring limit key) :
    Expiring limit (Redis.find lag now key) := by
  intro stored found
  exact expiring stored (Redis.find_some.mp found).1

/-- What a granted call makes of the key that it finds. -/
def counterAfter (window : TimeSpan) (call : Call) : Option (Redis.Key ℕ) → Redis.Key ℕ
  | none => ⟨call.permits, some (call.now + milliseconds window)⟩
  | some stored => ⟨stored.value + call.permits, stored.expiresAt⟩

theorem fixed_key (lag limit : ℕ) (window : TimeSpan) (call : Call) {key : Option (Redis.Key ℕ)}
    (expiring : Expiring limit key) :
    (fixed lag limit window call key).1 =
      if (fixed lag limit window call key).2.isAcquired = true ∧ 0 < call.permits then
        some (counterAfter window call (Redis.find lag call.now key))
      else Redis.find lag call.now key := by
  simp only [fixed_isAcquired]
  change (fixedWindowScript _ _ _ _ _).1 = _
  rw [fixedWindowScript_key]
  congr 1
  have found := expiring.find lag call.now
  cases equation : Redis.find lag call.now key with
  | none => exact if_pos rfl
  | some stored =>
      have positive := (found stored equation).1
      have more : ¬ stored.value + call.permits = call.permits := by omega
      exact if_neg more

/-- What every counter satisfies, a granted call and a rejected one keep. -/
theorem Expiring.serves (expiring : Expiring limit key) :
    Expiring limit (fixed lag limit window call key).1 := by
  have found := expiring.find lag call.now
  have admits := (fixed_isAcquired lag limit window call key).mp
  rw [fixed_key lag limit window call expiring]
  split
  · rename_i granted
    have fits := admits granted.1
    intro stored equal
    rw [← Option.some.inj equal]
    cases equation : Redis.find lag call.now key with
    | none =>
        rw [equation] at fits
        refine ⟨granted.2, ?_, _, rfl⟩
        rcases fits with ⟨zero, -⟩ | ⟨-, fits⟩
        · omega
        · exact le_trans (Nat.le_add_left _ _) fits
    | some old =>
        rw [equation] at fits
        obtain ⟨positive, -, expiresAt, carries⟩ := found old equation
        refine ⟨Nat.add_pos_left positive _, ?_, expiresAt, carries⟩
        rcases fits with ⟨zero, -⟩ | ⟨-, fits⟩
        · omega
        · exact fits
  · exact found

/-- A counted key has a time to live, after every history. -/
theorem fixed_expiring (lag limit : ℕ) (window : TimeSpan) (history : List Call) :
    Expiring limit (serveAll (fixed lag limit window) history).key := by
  have kept : ∀ served : Served ℕ, ∀ call ∈ history, Expiring limit served.key →
      Expiring limit (served.serve (fixed lag limit window) call).key :=
    fun _ _ _ expiring => expiring.serves
  apply serveFrom_induction (fixed lag limit window) _ kept
  intro stored impossible
  cases impossible

/-! ### The life of a key -/

/-- What was granted since there was no key: nothing, or what the key that lives until then
counts. -/
def CountsSince (lag limit start : ℕ) (window : TimeSpan) (served : Served ℕ) : Prop :=
  Expiring limit served.key ∧
    (((∀ now, start ≤ now → Redis.find lag now served.key = none) ∧ permits served.granted = 0) ∨
      ∃ stored expiresAt, served.key = some stored ∧ stored.expiresAt = some expiresAt ∧
        start + milliseconds window ≤ expiresAt ∧ permits served.granted = stored.value)

/-- A call that counts nothing grants no permits. -/
theorem grants_nothing
    (counts_nothing :
      ¬ ((fixed lag limit window call key).2.isAcquired = true ∧ 0 < call.permits)) :
    (if (fixed lag limit window call key).2.isAcquired = true then call.permits else 0) = 0 := by
  split
  · rename_i acquired
    exact Nat.eq_zero_of_not_pos fun positive => counts_nothing ⟨acquired, positive⟩
  · rfl

theorem CountsSince.serves {start : ℕ} {served : Served ℕ} (after : start ≤ call.now)
    (before : call.now < start + milliseconds window + lag)
    (counts : CountsSince lag limit start window served) :
    CountsSince lag limit start window (served.serve (fixed lag limit window) call) := by
  obtain ⟨expiring, found⟩ := counts
  refine ⟨expiring.serves, ?_⟩
  have key : (served.serve (fixed lag limit window) call).key = _ :=
    fixed_key lag limit window call expiring
  rw [permits_serve, key]
  rcases found with ⟨absent, nothing⟩ | ⟨stored, expiresAt, equation, carries, lives, counted⟩
  · rw [absent call.now after, nothing]
    by_cases creates : (fixed lag limit window call served.key).2.isAcquired = true ∧
        0 < call.permits
    · rw [if_pos creates, if_pos creates.1]
      refine .inr ⟨_, _, rfl, rfl, ?_, Nat.zero_add _⟩
      omega
    · rw [if_neg creates, grants_nothing creates]
      exact .inl ⟨fun _ _ => rfl, rfl⟩
  · have alive : Redis.find lag call.now served.key = some stored := by
      apply Redis.find_some.mpr
      refine ⟨equation, ?_⟩
      intro other carriesOther
      have : other = expiresAt := Option.some.inj (carriesOther.symm.trans carries)
      omega
    rw [alive, counted]
    right
    by_cases adds : (fixed lag limit window call served.key).2.isAcquired = true ∧ 0 < call.permits
    · rw [if_pos adds, if_pos adds.1]
      exact ⟨_, expiresAt, rfl, carries, lives, rfl⟩
    · rw [if_neg adds, grants_nothing adds]
      exact ⟨stored, expiresAt, rfl, carries, lives, rfl⟩

/-- From a moment without the key until the time to live that it gets then has passed, at most the
limit is granted. -/
theorem fixed_bounded (lag limit : ℕ) (window : TimeSpan) {key : Option (Redis.Key ℕ)}
    (expiring : Expiring limit key) {start : ℕ} (absent : Redis.find lag start key = none)
    {during : List Call}
    (within : ∀ call ∈ during, start ≤ call.now ∧ call.now < start + milliseconds window + lag) :
    permits (serveFrom (fixed lag limit window) key during).granted ≤ limit := by
  have counts :
      CountsSince lag limit start window (serveFrom (fixed lag limit window) key during) := by
    apply serveFrom_induction (fixed lag limit window)
    · refine ⟨expiring, .inl ⟨?_, rfl⟩⟩
      intro now le
      rcases Redis.find_later lag key le with lost | same
      · exact lost
      · rw [same, absent]
    · intro served call member counts
      exact counts.serves (within call member).1 (within call member).2
  obtain ⟨held, ⟨-, nothing⟩ | ⟨stored, expiresAt, equation, -, -, counted⟩⟩ := counts
  · rw [nothing]
    exact Nat.zero_le limit
  · rw [counted]
    exact (held stored equation).2.1

end Fixed

end AuthStartpack.RateLimiting
