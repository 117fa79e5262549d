import AuthStartpack.RateLimiting.FixedWindow
import AuthStartpack.RateLimiting.SlidingWindow

/-!
Owns the retry delays of both limiters, and the fixed window. A rejected call of
the sliding window is told when its oldest counted segment is no longer counted,
which always makes room for one permit. A rejected call of the fixed window is
told what is left of the key's time to live: at that very millisecond the key
may still be there.
-/

namespace AuthStartpack.RateLimiting

open RedisRateLimitStore

/-- A rejected call for one permit is told to wait, and is granted when it comes back after exactly
that delay with no call in between. -/
def RetrySound {α : Type}
    (acquire : Call → Option (Redis.Key α) → Option (Redis.Key α) × RedisRateLimitDecision)
    (now : ℕ) (key : Option (Redis.Key α)) : Prop :=
  (acquire ⟨now, 1⟩ key).2.isAcquired = false →
    0 < (acquire ⟨now, 1⟩ key).2.retryAfter ∧
      (acquire ⟨now + (acquire ⟨now, 1⟩ key).2.retryAfter, 1⟩
        (acquire ⟨now, 1⟩ key).1).2.isAcquired = true

instance {α : Type}
    (acquire : Call → Option (Redis.Key α) → Option (Redis.Key α) × RedisRateLimitDecision)
    (now : ℕ) (key : Option (Redis.Key α)) : Decidable (RetrySound acquire now key) :=
  inferInstanceAs (Decidable (_ → _))

/-! ### The sliding window -/

section Sliding

variable {lag limit segments now later : ℕ} {window : TimeSpan} {call : Call}
  {served : Served Redis.Hash}

/-- The counters of a key are positive, belong to segments that have begun, and do not exceed the
limit together. -/
structure Held (limit : ℕ) (window : TimeSpan) (segments now : ℕ)
    (key : Option (Redis.Key Redis.Hash)) : Prop where
  positive : ∀ entry ∈ Redis.hgetall key, 0 < entry.2
  begun : ∀ entry ∈ Redis.hgetall key, entry.1 ≤ now / segmentLength window segments
  bounded : (Redis.hgetall key).total ≤ limit

theorem Held.find (lag later : ℕ) {key : Option (Redis.Key Redis.Hash)}
    (held : Held limit window segments now key) :
    Held limit window segments now (Redis.find lag later key) := by
  cases equation : Redis.find lag later key with
  | none => exact ⟨by simp, by simp, Nat.zero_le _⟩
  | some found =>
      rw [← (Redis.find_some.mp equation).1]
      exact held

theorem Held.waits {key : Option (Redis.Key Redis.Hash)} (le : now ≤ later)
    (held : Held limit window segments now key) : Held limit window segments later key where
  positive := held.positive
  begun entry member := le_trans (held.begun entry member) (Nat.div_le_div_right le)
  bounded := held.bounded

theorem total_keptAt {key : Option (Redis.Key Redis.Hash)} :
    (keptAt lag window segments now key).total = countedAt lag window segments now key := rfl

/-- The fields that a call keeps are held, too. -/
theorem Held.kept (lag : ℕ) {key : Option (Redis.Key Redis.Hash)}
    (held : Held limit window segments now key) :
    (∀ entry ∈ keptAt lag window segments now key,
      0 < entry.2 ∧ entry.1 ≤ now / segmentLength window segments) ∧
      countedAt lag window segments now key ≤ limit := by
  have found := held.find lag now
  refine ⟨?_, le_trans (Redis.Hash.totalFrom_le _ _) found.bounded⟩
  intro entry member
  have old := List.mem_of_mem_filter member
  exact ⟨found.positive entry old, found.begun entry old⟩

theorem Held.serves {key : Option (Redis.Key Redis.Hash)}
    (held : Held limit window segments call.now key) :
    Held limit window segments call.now (sliding lag limit window segments call key).1 := by
  obtain ⟨old, bounded⟩ := held.kept lag
  have fields := sliding_key lag limit window segments call key
  split at fields
  · rename_i granted
    have entries : ∀ entry ∈ Redis.increment (call.now / segmentLength window segments) call.permits
        (keptAt lag window segments call.now key),
        0 < entry.2 ∧ entry.1 ≤ call.now / segmentLength window segments := by
      apply Redis.increment_fields old ⟨granted.2, le_refl _⟩
      intro count earlier
      exact ⟨Nat.add_pos_left earlier.1 _, le_refl _⟩
    rw [← fields] at entries
    refine ⟨fun entry member => (entries entry member).1,
      fun entry member => (entries entry member).2, ?_⟩
    rw [fields, Redis.Hash.total_increment, total_keptAt]
    rcases granted.1 with ⟨zero, -⟩ | ⟨-, fits⟩ <;> omega
  · rw [← fields] at old
    refine ⟨fun entry member => (old entry member).1, fun entry member => (old entry member).2, ?_⟩
    rw [fields]
    exact bounded

/-- The oldest segment that a call counts is the segment of a field, if it counts any permits. -/
theorem Held.exists_oldest (lag : ℕ) {key : Option (Redis.Key Redis.Hash)}
    (held : Held limit window segments now key)
    (some_counted : 0 < countedAt lag window segments now key) :
    ∃ entry ∈ keptAt lag window segments now key, entry.1 =
      (scanOf (milliseconds window) segments now (Redis.find lag now key)).oldestSegment := by
  obtain ⟨least, same | ⟨entry, member, equal⟩⟩ :=
    @scanOf_oldestSegment (milliseconds window) segments now (Redis.find lag now key)
      (keptAt lag window segments now key) rfl
  · cases equation : keptAt lag window segments now key with
    | nil =>
        rw [← total_keptAt, equation] at some_counted
        cases some_counted
    | cons entry rest =>
        have member : entry ∈ keptAt lag window segments now key := by
          rw [equation]
          exact List.mem_cons_self
        have begun := ((held.kept lag).1 entry member).2
        have oldest := least entry member
        rw [same] at oldest ⊢
        exact ⟨entry, List.mem_cons_self, Nat.le_antisymm begun oldest⟩
  · exact ⟨entry, member, equal⟩

/-- When the delay of a rejected call is over, its oldest counted segment is not counted any more,
and each of its permits makes room for the next one. -/
theorem sliding_retry (positive : 0 < segments) (limitPositive : 0 < limit)
    {key : Option (Redis.Key Redis.Hash)} (held : Held limit window segments now key) :
    RetrySound (sliding lag limit window segments) now key := by
  intro rejected
  have refused : ¬ Admits 1 limit (countedAt lag window segments now key) := by
    intro admits
    rw [(sliding_isAcquired lag limit window segments ⟨now, 1⟩ key).mpr admits] at rejected
    cases rejected
  obtain ⟨old, bounded⟩ := held.kept lag
  have full : countedAt lag window segments now key = limit := by
    have : ¬ countedAt lag window segments now key + 1 ≤ limit :=
      fun fits => refused (.inr ⟨Nat.one_pos, fits⟩)
    omega
  have fields := sliding_key lag limit window segments ⟨now, 1⟩ key
  rw [if_neg fun both => refused both.1] at fields
  obtain ⟨entry, member, oldest⟩ := held.exists_oldest lag (by omega)
  have delay : (sliding lag limit window segments ⟨now, 1⟩ key).2.retryAfter =
      max 1 ((entry.1 + segments) * segmentLength window segments - now) := by
    rw [oldest]
    apply retryAfter_slidingWindowScript
    rw [scanOf_total]
    exact refused
  have lengthPositive := segmentLength_pos window positive
  -- A counted segment is no older than the window, so that it ends after `now`.
  have later : now < (entry.1 + segments) * segmentLength window segments := by
    have counted : firstCounted (segmentLength window segments) segments now ≤ entry.1 := by
      simpa using List.of_mem_filter member
    apply (Nat.div_lt_iff_lt_mul lengthPositive).mp
    unfold firstCounted at counted
    omega
  have waited : now + (sliding lag limit window segments ⟨now, 1⟩ key).2.retryAfter =
      (entry.1 + segments) * segmentLength window segments := by
    rw [delay]
    omega
  refine ⟨by rw [delay]; omega, ?_⟩
  rw [waited]
  apply (sliding_isAcquired ..).mpr
  refine .inr ⟨Nat.one_pos, ?_⟩
  have start : firstCounted (segmentLength window segments) segments
      ((entry.1 + segments) * segmentLength window segments) = entry.1 + 1 := by
    unfold firstCounted
    rw [Nat.mul_div_cancel _ lengthPositive]
    omega
  suffices countedAt lag window segments ((entry.1 + segments) * segmentLength window segments)
      (sliding lag limit window segments ⟨now, 1⟩ key).1 < limit from this
  unfold countedAt
  rw [start]
  rcases Redis.find_later lag (sliding lag limit window segments ⟨now, 1⟩ key).1
    (Nat.le_of_lt later) with lost | same
  · rw [lost]
    exact limitPositive
  · have : Redis.hgetall (Redis.find lag ((entry.1 + segments) * segmentLength window segments)
        (sliding lag limit window segments ⟨now, 1⟩ key).1) =
        keptAt lag window segments now key := by
      rw [same]
      cases equation : (sliding lag limit window segments ⟨now, 1⟩ key).1 with
      | none =>
          rw [equation] at fields
          exact fields
      | some left =>
          rw [← equation, (sliding_lives lag limit window ⟨now, 1⟩ key positive left equation).2,
            ← equation]
          exact fields
    rw [this, ← full]
    apply Redis.Hash.totalFrom_lt
    · exact fun kept keptMember => (old kept keptMember).1
    · exact ⟨entry, member, Nat.lt_succ_self _⟩

/-- Every history leaves what is held. -/
theorem held_of_history {history : List Call} (ordered : Ordered history)
    (past : ∀ call ∈ history, call.now ≤ now) :
    Held limit window segments now (serveAll (sliding lag limit window segments) history).key := by
  have initially : ∀ now, Held limit window segments now none :=
    fun _ => ⟨by simp, by simp, Nat.zero_le _⟩
  have waits : ∀ now later (served : Served Redis.Hash), now ≤ later →
      Held limit window segments now served.key → Held limit window segments later served.key :=
    fun _ _ _ le held => held.waits le
  have serves : ∀ (served : Served Redis.Hash) call,
      Held limit window segments call.now served.key →
      Held limit window segments call.now (sliding lag limit window segments call served.key).1 :=
    fun _ _ held => held.serves
  exact invariant_of_serve (sliding lag limit window segments) initially waits serves ordered past

end Sliding

/-! ### The fixed window -/

section Fixed

variable {lag limit now : ℕ} {window : TimeSpan} {key : Option (Redis.Key ℕ)}

/-- A rejected call for one permit finds the key. -/
theorem fixed_rejected (limitPositive : 0 < limit) (expiring : Expiring limit key)
    (rejected : (fixed lag limit window ⟨now, 1⟩ key).2.isAcquired = false) :
    ∃ stored expiresAt, key = some stored ∧ stored.value = limit ∧
      stored.expiresAt = some expiresAt ∧ now < expiresAt + lag ∧
      (fixed lag limit window ⟨now, 1⟩ key).1 = key ∧
      (fixed lag limit window ⟨now, 1⟩ key).2.retryAfter =
        if expiresAt - now < 1 then milliseconds window else expiresAt - now := by
  have refused : ¬ Admits 1 limit ((Redis.get (Redis.find lag now key)).getD 0) := by
    intro admits
    rw [(fixed_isAcquired lag limit window ⟨now, 1⟩ key).mpr admits] at rejected
    cases rejected
  obtain ⟨same, delay⟩ : (fixed lag limit window ⟨now, 1⟩ key).1 = Redis.find lag now key ∧
      (fixed lag limit window ⟨now, 1⟩ key).2.retryAfter =
        if Redis.pttl now (Redis.find lag now key) < 1 then milliseconds window
        else (Redis.pttl now (Redis.find lag now key)).toNat :=
    fixedWindowScript_of_rejected refused
  cases found : Redis.find lag now key with
  | none =>
      rw [found] at refused
      exact absurd (.inr ⟨Nat.one_pos, limitPositive⟩) refused
  | some stored =>
      obtain ⟨equation, alive⟩ := Redis.find_some.mp found
      obtain ⟨-, bounded, expiresAt, carries⟩ := expiring stored equation
      have full : stored.value = limit := by
        rw [found] at refused
        have : ¬ stored.value + 1 ≤ limit := fun fits => refused (.inr ⟨Nat.one_pos, fits⟩)
        omega
      refine ⟨stored, expiresAt, equation, full, carries, alive expiresAt carries, ?_, ?_⟩
      · rw [same, found, equation]
      · rw [delay, found, Redis.pttl_some carries]
        by_cases last : expiresAt - now < 1
        · rw [if_pos last, if_pos (by omega)]
        · rw [if_neg last, if_neg (by omega), Int.toNat_natCast]

/-- The delay ends with the time to live of the key, and what the key counts is forgotten only when
the key is lost. -/
theorem fixed_retry_iff (documented : lag ≤ 1) (limitPositive : 0 < limit)
    (expiring : Expiring limit key) :
    ((fixed lag limit window ⟨now, 1⟩ key).2.isAcquired = false →
      0 < (fixed lag limit window ⟨now, 1⟩ key).2.retryAfter) ∧
    (RetrySound (fixed lag limit window) now key ↔
      ((fixed lag limit window ⟨now, 1⟩ key).2.isAcquired = false →
        lag = 0 ∨ Redis.pttl now key = 0)) := by
  unfold RetrySound
  by_cases rejected : (fixed lag limit window ⟨now, 1⟩ key).2.isAcquired = false
  · obtain ⟨stored, expiresAt, equation, full, carries, alive, same, delay⟩ :=
      fixed_rejected limitPositive expiring rejected
    have windowPositive := milliseconds_pos window
    have positive : 0 < (fixed lag limit window ⟨now, 1⟩ key).2.retryAfter := by
      rw [delay]
      split <;> omega
    -- The same call is granted again as soon as the key is lost.
    have granted : ∀ later, (fixed lag limit window ⟨later, 1⟩ key).2.isAcquired = true ↔
        expiresAt + lag ≤ later := by
      intro later
      apply (fixed_isAcquired lag limit window ⟨later, 1⟩ key).trans
      change Admits 1 limit ((Redis.get (Redis.find lag later key)).getD 0) ↔ _
      cases found : Redis.find lag later key with
      | none =>
          refine ⟨fun _ => ?_, fun _ => .inr ⟨Nat.one_pos, limitPositive⟩⟩
          by_contra alive
          have kept : Redis.find lag later key = some stored := by
            apply Redis.find_some.mpr
            refine ⟨equation, ?_⟩
            intro other carriesOther
            have : other = expiresAt := Option.some.inj (carriesOther.symm.trans carries)
            omega
          rw [kept] at found
          cases found
      | some other =>
          obtain ⟨otherEquation, otherAlive⟩ := Redis.find_some.mp found
          have identical : other = stored := Option.some.inj (otherEquation.symm.trans equation)
          have := otherAlive expiresAt (identical ▸ carries)
          constructor
          · rintro (⟨zero, -⟩ | ⟨-, fits⟩)
            · cases zero
            · change other.value + 1 ≤ limit at fits
              rw [identical] at fits
              omega
          · omega
    have remaining : Redis.pttl now key = (expiresAt - now : ℕ) := by
      rw [equation, Redis.pttl_some carries]
    refine ⟨fun _ => positive, ?_, ?_⟩
    · intro sound _
      have back := (sound rejected).2
      rw [same, granted, delay] at back
      rw [remaining]
      split at back <;> omega
    · intro condition _
      have ended := condition rejected
      rw [remaining] at ended
      refine ⟨positive, ?_⟩
      rw [same, granted, delay]
      split <;> omega
  · simp [rejected]

end Fixed

/-- A rejected call is told to wait. Where a policy has several segments it is granted then, and
where it has one just if the server drops a key as soon as its time to live ends, or nothing of it
is left at the call. -/
theorem generalLimiter_retry_iff {lag : ℕ} (documented : lag ≤ 1) (options : RateLimitOptions)
    {history : List Call} (ordered : Ordered history) {now : ℕ}
    (past : ∀ call ∈ history, call.now ≤ now) :
    let limiter := generalLimiter lag options
    let key := (serveAll limiter.acquire history).key
    ((limiter.acquire ⟨now, 1⟩ key).2.isAcquired = false →
      0 < (limiter.acquire ⟨now, 1⟩ key).2.retryAfter) ∧
    (RetrySound limiter.acquire now key ↔
      ((limiter.acquire ⟨now, 1⟩ key).2.isAcquired = false →
        options.generalSegmentsPerWindow ≠ 1 ∨ lag = 0 ∨ Redis.pttl now key = 0)) := by
  by_cases one : options.generalSegmentsPerWindow = 1
  · rw [generalLimiter_of_one one]
    simp only [one, ne_eq, not_true_eq_false, false_or]
    exact fixed_retry_iff documented options.general.permitLimit_range.1
      (fixed_expiring lag options.general.permitLimit options.general.window history)
  · rw [generalLimiter_of_several one]
    have sound : RetrySound (sliding lag options.general.permitLimit options.general.window
        options.generalSegmentsPerWindow) now (serveAll (sliding lag options.general.permitLimit
          options.general.window options.generalSegmentsPerWindow) history).key :=
      sliding_retry options.generalSegmentsPerWindow_range.1 options.general.permitLimit_range.1
        (held_of_history ordered past)
    exact ⟨fun rejected => (sound rejected).1, fun _ _ => .inl one, fun _ => sound⟩

/-- A rejected call for one permit is told to wait, and is granted then if the policy has several
segments. With one segment, and by every other policy, it is granted just if the server drops a key
as soon as its time to live ends, or nothing of it is left at the call. A key of the fixed window
grants at most the limit while it lives, and always has a time to live. -/
theorem limiters_retry (lag : ℕ) (documented : lag ≤ 1) (options : RateLimitOptions) :
    (∀ history, Ordered history → ∀ now, (∀ call ∈ history, call.now ≤ now) →
      let limiter := generalLimiter lag options
      let key := (serveAll limiter.acquire history).key
      ((limiter.acquire ⟨now, 1⟩ key).2.isAcquired = false →
        0 < (limiter.acquire ⟨now, 1⟩ key).2.retryAfter) ∧
      (RetrySound limiter.acquire now key ↔
        ((limiter.acquire ⟨now, 1⟩ key).2.isAcquired = false →
          options.generalSegmentsPerWindow ≠ 1 ∨ lag = 0 ∨ Redis.pttl now key = 0))) ∧
    ∀ {largest : ℕ} {shortest longest : TimeSpan} (limits : WindowOptions largest shortest longest)
      (history : List Call),
      let limiter := fixed lag limits.permitLimit limits.window
      let key := (serveAll limiter history).key
      (∀ now, ((limiter ⟨now, 1⟩ key).2.isAcquired = false →
          0 < (limiter ⟨now, 1⟩ key).2.retryAfter) ∧
        (RetrySound limiter now key ↔ ((limiter ⟨now, 1⟩ key).2.isAcquired = false →
          lag = 0 ∨ Redis.pttl now key = 0))) ∧
      (∀ start, Redis.find lag start key = none → ∀ during : List Call,
        (∀ call ∈ during, start ≤ call.now ∧
          call.now < start + milliseconds limits.window + lag) →
        permits (serveFrom limiter key during).granted ≤ limits.permitLimit) ∧
      ∀ stored, key = some stored → ∃ expiresAt, stored.expiresAt = some expiresAt := by
  constructor
  · intro history ordered now past
    exact generalLimiter_retry_iff documented options ordered past
  · intro largest shortest longest limits history limiter key
    have expiring := fixed_expiring lag limits.permitLimit limits.window history
    refine ⟨?_, ?_, ?_⟩
    · intro now
      exact fixed_retry_iff documented limits.permitLimit_range.1 expiring
    · intro start absent during within
      exact fixed_bounded lag limits.permitLimit limits.window expiring absent within
    · intro stored equation
      exact (expiring stored equation).2.2

theorem limiters_retry_sample :
    RetrySound (generalLimiter 1 .defaults).acquire 1700000000001
        (serveAll (generalLimiter 1 .defaults).acquire [⟨1700000000000, 100⟩]).key ∧
      (RetrySound (fixed 1 10 (.ofSeconds 60)) 1700000060000
          (serveAll (fixed 1 10 (.ofSeconds 60)) [⟨1700000000000, 10⟩]).key ↔
        ((fixed 1 10 (.ofSeconds 60) ⟨1700000060000, 1⟩
            (serveAll (fixed 1 10 (.ofSeconds 60)) [⟨1700000000000, 10⟩]).key).2.isAcquired =
              false →
          1 = 0 ∨ Redis.pttl 1700000060000
            (serveAll (fixed 1 10 (.ofSeconds 60)) [⟨1700000000000, 10⟩]).key = 0)) := by
  obtain ⟨general, others⟩ := limiters_retry 1 (Nat.le_refl 1) .defaults
  obtain ⟨-, sliding⟩ := general [⟨1700000000000, 100⟩] (by decide) 1700000000001 (by decide)
  obtain ⟨fixed, -⟩ := others RateLimitOptions.defaults.authStrict [⟨1700000000000, 10⟩]
  exact ⟨sliding.mpr fun _ => .inl (by decide), (fixed 1700000060000).2⟩

/-- The call that comes back after its delay finds the key in its last millisecond. -/
theorem fixed_retry_rejected :
    ¬ RetrySound (fixed 1 RateLimitOptions.defaults.authStrict.permitLimit
        RateLimitOptions.defaults.authStrict.window) 1700000000001
      (serveAll (fixed 1 RateLimitOptions.defaults.authStrict.permitLimit
        RateLimitOptions.defaults.authStrict.window)
        (List.replicate 10 ⟨1700000000000, 1⟩)).key := by
  decide +kernel

end AuthStartpack.RateLimiting
