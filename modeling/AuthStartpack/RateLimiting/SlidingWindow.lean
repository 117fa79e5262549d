import AuthStartpack.RateLimiting.History

/-!
Owns the sliding window of the limiter. The hash of a key counts the permits
that were granted in each segment, as long as the key lives for as long as its
segments are counted: then no run of consecutive segments grants more than the
limit. The time to live is a rounded window and one segment, and where the
rounded segments together are longer than that the key can be lost too early.
-/

namespace AuthStartpack.RateLimiting

open RedisRateLimitStore

/-! ### What the script does -/

section Scan

variable {minimumSegment : ℤ} {first : ℕ} {scan : Scan} {entries : Redis.Hash}

theorem Scan.foldl_total
    (prunes : ∀ segment : ℕ, (segment : ℤ) < minimumSegment ↔ segment < first) :
    (entries.foldl (Scan.visit minimumSegment) scan).total =
      scan.total + Redis.Hash.totalFrom first entries := by
  induction entries generalizing scan with
  | nil => rfl
  | cons head tail inductionHypothesis =>
      rw [List.foldl_cons, inductionHypothesis, Redis.Hash.totalFrom_cons]
      unfold Scan.visit
      by_cases pruned : (head.1 : ℤ) < minimumSegment
      · have below := (prunes head.1).mp pruned
        rw [if_pos pruned, if_neg (by omega), Nat.zero_add]
      · have kept : first ≤ head.1 := by
          have := mt (prunes head.1).mpr pruned
          omega
        rw [if_neg pruned, if_pos kept]
        change scan.total + head.2 + _ = _
        omega

theorem Scan.foldl_key (prunes : ∀ segment : ℕ, (segment : ℤ) < minimumSegment ↔ segment < first) :
    Redis.hgetall (entries.foldl (Scan.visit minimumSegment) scan).key =
      (Redis.hgetall scan.key).filter fun entry =>
        ∀ visited ∈ entries, visited.1 < first → entry.1 ≠ visited.1 := by
  induction entries generalizing scan with
  | nil => simp
  | cons head tail inductionHypothesis =>
      rw [List.foldl_cons, inductionHypothesis]
      unfold Scan.visit
      by_cases pruned : (head.1 : ℤ) < minimumSegment
      · have below := (prunes head.1).mp pruned
        rw [if_pos pruned, Redis.hgetall_hdel, List.filter_filter]
        apply List.filter_congr
        intro entry _
        rw [Bool.eq_iff_iff]
        simp [below, and_comm]
      · have kept := mt (prunes head.1).mpr pruned
        rw [if_neg pruned]
        apply List.filter_congr
        intro entry _
        simp [kept]

/-- The oldest segment is the earliest of those that are counted and the one it starts from. -/
theorem Scan.foldl_oldestSegment
    (prunes : ∀ segment : ℕ, (segment : ℤ) < minimumSegment ↔ segment < first) :
    let oldest := (entries.foldl (Scan.visit minimumSegment) scan).oldestSegment
    oldest ≤ scan.oldestSegment ∧ (∀ entry ∈ entries, first ≤ entry.1 → oldest ≤ entry.1) ∧
      (oldest = scan.oldestSegment ∨ ∃ entry ∈ entries, first ≤ entry.1 ∧ entry.1 = oldest) := by
  induction entries generalizing scan with
  | nil => simp
  | cons head tail inductionHypothesis =>
      obtain ⟨atMost, least, reached⟩ := @inductionHypothesis (scan.visit minimumSegment head)
      rw [List.foldl_cons]
      generalize (tail.foldl (Scan.visit minimumSegment)
        (scan.visit minimumSegment head)).oldestSegment
        = oldest at atMost least reached
      have visited : (scan.visit minimumSegment head).oldestSegment =
          if first ≤ head.1 ∧ head.1 < scan.oldestSegment then head.1 else scan.oldestSegment := by
        have := prunes head.1
        unfold Scan.visit
        split
        · rw [if_neg (by omega)]
        · change (if head.1 < scan.oldestSegment then head.1 else scan.oldestSegment) = _
          by_cases older : head.1 < scan.oldestSegment
          · rw [if_pos older, if_pos (by omega)]
          · rw [if_neg older, if_neg (by omega)]
      rw [visited] at atMost reached
      refine ⟨by split at atMost <;> omega, ?_, ?_⟩
      · intro entry member counted
        rcases List.mem_cons.mp member with rfl | rest
        · split at atMost <;> omega
        · exact least entry rest counted
      · rcases reached with same | ⟨entry, member, counted, equal⟩
        · split at same
          · rename_i older
            exact .inr ⟨head, .head _, older.1, same.symm⟩
          · exact .inl same
        · exact .inr ⟨entry, .tail _ member, counted, equal⟩

end Scan

section Script

/-- The oldest segment that a call at `now` counts. -/
def firstCounted (segmentLength segments now : ℕ) : ℕ := now / segmentLength + 1 - segments

variable {permits limit window segments now : ℕ} {key : Option (Redis.Key Redis.Hash)}

/-- The scan that the script makes of its key. -/
def scanOf (window segments now : ℕ) (key : Option (Redis.Key Redis.Hash)) : Scan :=
  (Redis.hgetall key).foldl
    (Scan.visit ((now / (window ⌈/⌉ segments) : ℕ) - segments + 1))
    ⟨key, 0, now / (window ⌈/⌉ segments)⟩

theorem prunes_iff (segment : ℕ) :
    (segment : ℤ) < (now / (window ⌈/⌉ segments) : ℕ) - segments + 1 ↔
      segment < firstCounted (window ⌈/⌉ segments) segments now := by
  unfold firstCounted
  omega

theorem scanOf_total :
    (scanOf window segments now key).total =
      Redis.Hash.totalFrom (firstCounted (window ⌈/⌉ segments) segments now)
        (Redis.hgetall key) := by
  unfold scanOf
  rw [Scan.foldl_total prunes_iff, Nat.zero_add]

/-- The scan leaves the fields that are counted. -/
theorem scanOf_key :
    Redis.hgetall (scanOf window segments now key).key =
      (Redis.hgetall key).filter
        (firstCounted (window ⌈/⌉ segments) segments now ≤ ·.1) := by
  unfold scanOf
  rw [Scan.foldl_key prunes_iff]
  apply List.filter_congr
  intro entry member
  rw [decide_eq_decide]
  constructor
  · intro spared
    by_contra older
    exact spared entry member (Nat.lt_of_not_le older) rfl
  · intro counted visited _ pruned same
    omega

/-- The oldest segment is the earliest of the counted fields and the segment of the call. -/
theorem scanOf_oldestSegment {entries : Redis.Hash}
    (kept : entries = (Redis.hgetall key).filter
      (firstCounted (window ⌈/⌉ segments) segments now ≤ ·.1)) :
    (∀ entry ∈ entries, (scanOf window segments now key).oldestSegment ≤ entry.1) ∧
      ((scanOf window segments now key).oldestSegment = now / (window ⌈/⌉ segments) ∨
        ∃ entry ∈ entries, entry.1 = (scanOf window segments now key).oldestSegment) := by
  obtain ⟨-, least, reached⟩ := @Scan.foldl_oldestSegment _ _
    ⟨key, 0, now / (window ⌈/⌉ segments)⟩ (Redis.hgetall key)
    (@prunes_iff window segments now)
  subst kept
  constructor
  · intro entry member
    obtain ⟨old, counted⟩ := List.mem_filter.mp member
    exact least entry old (of_decide_eq_true counted)
  · apply reached.imp_right
    rintro ⟨entry, member, counted, equal⟩
    exact ⟨entry, List.mem_filter.mpr ⟨member, decide_eq_true counted⟩, equal⟩

theorem isAcquired_slidingWindowScript :
    (decision (slidingWindowScript permits limit window segments now key).2).isAcquired = true ↔
      Admits permits limit (scanOf window segments now key).total := by
  change decide
    ((if Admits permits limit (scanOf window segments now key).total then (1 : ℤ) else 0)
    = 1) = true ↔ _
  rw [decide_eq_true_iff]
  split <;> simp_all

theorem slidingWindowScript_key :
    Redis.hgetall (slidingWindowScript permits limit window segments now key).1 =
      if Admits permits limit (scanOf window segments now key).total ∧ 0 < permits then
        Redis.increment (now / (window ⌈/⌉ segments)) permits
          (Redis.hgetall (scanOf window segments now key).key)
      else Redis.hgetall (scanOf window segments now key).key := by
  change Redis.hgetall (Redis.pexpire now _ (if Admits permits limit
    (scanOf window segments now key).total ∧ 0 < permits then _ else _ :
      Option (Redis.Key Redis.Hash) × ℕ).1) = _
  rw [Redis.hgetall_pexpire]
  split
  · rfl
  · rfl

theorem slidingWindowScript_expiresAt {left : Redis.Key Redis.Hash}
    (leaves : (slidingWindowScript permits limit window segments now key).1 = some left) :
    left.expiresAt = some (now + (window + window ⌈/⌉ segments)) := by
  obtain ⟨old, -, rfl⟩ := Redis.pexpire_some.mp leaves
  rfl

/-- The delay of a rejected call ends when the oldest counted segment is no longer counted. -/
theorem retryAfter_slidingWindowScript
    (rejected : ¬ Admits permits limit (scanOf window segments now key).total) :
    (decision (slidingWindowScript permits limit window segments now key).2).retryAfter =
      max 1 (((scanOf window segments now key).oldestSegment + segments) * (window ⌈/⌉ segments)
        - now) := by
  change (max 0 (if Admits permits limit (scanOf window segments now key).total then (0 : ℤ) else
    max 1 ((((scanOf window segments now key).oldestSegment + segments) * (window ⌈/⌉ segments) : ℕ)
      - (now : ℤ)))).toNat = _
  rw [if_neg rejected]
  omega

end Script

/-! ### Counting -/

/-- The length of a segment in milliseconds. -/
def segmentLength (window : TimeSpan) (segments : ℕ) : ℕ := milliseconds window ⌈/⌉ segments

/-- The permits granted from the segment `first` on. -/
def grantedFrom (length first : ℕ) (granted : List Call) : ℕ :=
  permits (granted.filter (first ≤ ·.now / length))

/-- The permits granted within the consecutive segments that start with `first`. -/
def grantedWithin (length segments first : ℕ) (granted : List Call) : ℕ :=
  permits (granted.filter fun call =>
    first ≤ call.now / length ∧ call.now / length < first + segments)

section Counting

variable {length segments first : ℕ} {granted : List Call} {call : Call}

theorem grantedFrom_concat :
    grantedFrom length first (granted ++ [call]) =
      grantedFrom length first granted + if first ≤ call.now / length then call.permits else 0 := by
  unfold grantedFrom
  rw [List.filter_append, permits_append]
  by_cases counted : first ≤ call.now / length
  · simp [counted, permits_cons]
  · simp [counted]

theorem grantedWithin_concat :
    grantedWithin length segments first (granted ++ [call]) =
      grantedWithin length segments first granted +
        if first ≤ call.now / length ∧ call.now / length < first + segments then call.permits
        else 0 := by
  unfold grantedWithin
  rw [List.filter_append, permits_append]
  by_cases counted : first ≤ call.now / length ∧ call.now / length < first + segments
  · simp [counted, permits_cons]
  · rw [if_neg counted, List.filter_singleton]
    simp [counted]

theorem grantedWithin_le_grantedFrom (length segments : ℕ) (granted : List Call) {start : ℕ}
    (le : start ≤ first) :
    grantedWithin length segments first granted ≤ grantedFrom length start granted := by
  apply permits_filter_mono
  intro call _ within
  simp only [decide_eq_true_eq] at within ⊢
  omega

theorem grantedFrom_le (length first : ℕ) (granted : List Call) :
    grantedFrom length first granted ≤ permits granted :=
  permits_filter_le _

theorem grantedFrom_eq_zero (older : ∀ call ∈ granted, call.now / length < first) :
    grantedFrom length first granted = 0 := by
  have none : granted.filter (first ≤ ·.now / length) = [] := by
    apply List.filter_eq_nil_iff.mpr
    intro call member
    have := older call member
    simpa using this
  unfold grantedFrom
  rw [none, permits_nil]

end Counting

section Segments

variable {segments : ℕ}

theorem segmentLength_pos (window : TimeSpan) (positive : 0 < segments) :
    0 < segmentLength window segments := by
  have covers : milliseconds window ≤ segments * segmentLength window segments :=
    (ceilDiv_le_iff_le_mul positive).mp (le_refl _)
  rcases Nat.eq_zero_or_pos (segmentLength window segments) with zero | positive
  · rw [zero, Nat.mul_zero] at covers
    exact absurd covers (Nat.not_le_of_lt (milliseconds_pos window))
  · exact positive

end Segments

/-! ### The limiter -/

section Sliding

variable {lag limit segments now later : ℕ} {window : TimeSpan} {call : Call}
  {key : Option (Redis.Key Redis.Hash)} {served : Served Redis.Hash}

/-- The permits that a call counts on the key that it finds. -/
def countedAt (lag : ℕ) (window : TimeSpan) (segments now : ℕ)
    (key : Option (Redis.Key Redis.Hash)) : ℕ :=
  Redis.Hash.totalFrom (firstCounted (segmentLength window segments) segments now)
    (Redis.hgetall (Redis.find lag now key))

theorem sliding_isAcquired (lag limit : ℕ) (window : TimeSpan) (segments : ℕ) (call : Call)
    (key : Option (Redis.Key Redis.Hash)) :
    (sliding lag limit window segments call key).2.isAcquired = true ↔
      Admits call.permits limit (countedAt lag window segments call.now key) := by
  change (decision (slidingWindowScript _ _ _ _ _ _).2).isAcquired = true ↔ _
  rw [isAcquired_slidingWindowScript, scanOf_total]
  rfl

/-- The fields that a call at `now` counts on the key that it finds. -/
def keptAt (lag : ℕ) (window : TimeSpan) (segments now : ℕ)
    (key : Option (Redis.Key Redis.Hash)) : Redis.Hash :=
  (Redis.hgetall (Redis.find lag now key)).filter
    (firstCounted (segmentLength window segments) segments now ≤ ·.1)

/-- A call leaves the fields that it counts, and adds the permits that it grants. -/
theorem sliding_key (lag limit : ℕ) (window : TimeSpan) (segments : ℕ) (call : Call)
    (key : Option (Redis.Key Redis.Hash)) :
    Redis.hgetall (sliding lag limit window segments call key).1 =
      if Admits call.permits limit (countedAt lag window segments call.now key) ∧
          0 < call.permits then
        Redis.increment (call.now / segmentLength window segments) call.permits
          (keptAt lag window segments call.now key)
      else keptAt lag window segments call.now key := by
  change Redis.hgetall (slidingWindowScript _ _ _ _ _ _).1 = _
  rw [slidingWindowScript_key, scanOf_total, scanOf_key]
  rfl

theorem totalFrom_keptAt {first : ℕ}
    (counted : firstCounted (segmentLength window segments) segments now ≤ first) :
    Redis.Hash.totalFrom first (keptAt lag window segments now key) =
      Redis.Hash.totalFrom first (Redis.hgetall (Redis.find lag now key)) := by
  unfold Redis.Hash.totalFrom keptAt
  rw [List.filter_filter]
  congr 1
  apply List.filter_congr
  intro entry _
  by_cases above : first ≤ entry.1
  · simp [above, le_trans counted above]
  · simp [above]

/-- What a call adds to the hash: the permits that it grants. -/
theorem sliding_totalFrom (lag limit : ℕ) (window : TimeSpan) (segments : ℕ) (call : Call)
    (key : Option (Redis.Key Redis.Hash)) (first : ℕ)
    (counted : firstCounted (segmentLength window segments) segments call.now ≤ first) :
    Redis.Hash.totalFrom first (Redis.hgetall (sliding lag limit window segments call key).1) =
      Redis.Hash.totalFrom first (Redis.hgetall (Redis.find lag call.now key)) +
        if (sliding lag limit window segments call key).2.isAcquired = true ∧
          first ≤ call.now / segmentLength window segments then call.permits else 0 := by
  simp only [sliding_isAcquired]
  rw [sliding_key, ← totalFrom_keptAt counted]
  split
  · rename_i granted
    rw [Redis.Hash.totalFrom_increment]
    simp [granted.1]
  · rename_i refused
    rcases Nat.eq_zero_or_pos call.permits with zero | positive
    · simp [zero]
    · rw [if_neg fun both => refused ⟨both.1, positive⟩, Nat.add_zero]

/-- A call leaves a key that lives for a window and a segment. -/
theorem sliding_lives (lag limit : ℕ) (window : TimeSpan) (call : Call)
    (key : Option (Redis.Key Redis.Hash)) (positive : 0 < segments) (left : Redis.Key Redis.Hash)
    (leaves : (sliding lag limit window segments call key).1 = some left) :
    left.expiresAt = some (call.now + (milliseconds window + segmentLength window segments)) ∧
      Redis.find lag call.now (sliding lag limit window segments call key).1 = some left := by
  have expires : left.expiresAt = _ := slidingWindowScript_expiresAt leaves
  refine ⟨expires, Redis.find_some.mpr ⟨leaves, ?_⟩⟩
  intro expiresAt carries
  have := segmentLength_pos window positive
  rw [expires] at carries
  cases carries
  change _ < call.now + (milliseconds window + segmentLength window segments) + lag
  omega

/-! ### The bound -/

/-- The hash that a call at `now` finds counts what was granted. -/
structure Counts (lag limit : ℕ) (window : TimeSpan) (segments now : ℕ)
    (served : Served Redis.Hash) : Prop where
  past : ∀ call ∈ served.granted, call.now ≤ now
  counts : ∀ first, firstCounted (segmentLength window segments) segments now ≤ first →
    Redis.Hash.totalFrom first (Redis.hgetall (Redis.find lag now served.key)) =
      grantedFrom (segmentLength window segments) first served.granted
  lives : ∀ key, served.key = some key → ∃ expiresAt, key.expiresAt = some expiresAt ∧
    ∀ call ∈ served.granted,
      call.now + (milliseconds window + segmentLength window segments) ≤ expiresAt
  bounded : ∀ first,
    grantedWithin (segmentLength window segments) segments first served.granted ≤ limit

theorem Counts.initially : Counts lag limit window segments now ⟨none, []⟩ where
  past := by simp
  counts := by simp [grantedFrom, Redis.Hash.totalFrom]
  lives := by simp
  bounded := by simp [grantedWithin]

theorem Counts.waits (positive : 0 < segments)
    (covered : segments * segmentLength window segments ≤
      milliseconds window + segmentLength window segments + lag)
    (le : now ≤ later) (counts : Counts lag limit window segments now served) :
    Counts lag limit window segments later served where
  past call member := le_trans (counts.past call member) le
  lives := counts.lives
  bounded := counts.bounded
  counts first from' := by
    have earlier : firstCounted (segmentLength window segments) segments now ≤ first := by
      have := Nat.div_le_div_right (c := segmentLength window segments) le
      unfold firstCounted at from' ⊢
      omega
    rcases Redis.find_later lag served.key le with lost | same
    · -- Every counter of a lost key belongs to a segment that is no longer counted.
      rw [lost, Redis.hgetall_none]
      change 0 = _
      cases equation : served.key with
      | none =>
          rw [← counts.counts first earlier, equation]
          rfl
      | some key =>
          obtain ⟨expiresAt, carries, outlived⟩ := counts.lives key equation
          have expired : expiresAt + lag ≤ later := by
            by_contra alive
            have found : Redis.find lag later served.key = some key := by
              apply Redis.find_some.mpr
              refine ⟨equation, ?_⟩
              intro other carriesOther
              rw [carries] at carriesOther
              cases carriesOther
              omega
            rw [lost] at found
            cases found
          refine (grantedFrom_eq_zero ?_).symm
          intro call member
          have lived := outlived call member
          have lengthPositive := segmentLength_pos window positive
          have elapsed : call.now / segmentLength window segments + segments ≤
              later / segmentLength window segments := by
            rw [← Nat.add_mul_div_right _ _ lengthPositive]
            apply Nat.div_le_div_right
            omega
          unfold firstCounted at from'
          omega
    · rw [same]
      exact counts.counts first earlier

theorem Counts.serves (positive : 0 < segments)
    (counts : Counts lag limit window segments call.now served) :
    Counts lag limit window segments call.now
      (served.serve (sliding lag limit window segments) call) := by
  have atCall : countedAt lag window segments call.now served.key =
      grantedFrom (segmentLength window segments)
        (firstCounted (segmentLength window segments) segments call.now) served.granted :=
    counts.counts _ (le_refl _)
  have added := sliding_totalFrom lag limit window segments call served.key
  have lives := sliding_lives lag limit window call served.key positive
  have acquired := sliding_isAcquired lag limit window segments call served.key
  unfold Served.serve
  generalize sliding lag limit window segments call served.key = result at added lives acquired
  have found : Redis.hgetall (Redis.find lag call.now result.1) = Redis.hgetall result.1 := by
    cases equation : result.1 with
    | none => rfl
    | some left => rw [← equation, (lives left equation).2, equation]
  by_cases granted : result.2.isAcquired = true
  · have admits := acquired.mp granted
    rw [if_pos granted]
    refine ⟨?_, ?_, ?_, ?_⟩
    · intro earlier member
      rcases List.mem_append.mp member with old | new
      · exact counts.past earlier old
      · rw [List.mem_singleton.mp new]
    · intro first from'
      rw [found, added first from', counts.counts first from', grantedFrom_concat]
      simp only [granted, true_and]
    · intro left leaves
      refine ⟨_, (lives left leaves).1, ?_⟩
      intro earlier member
      have : earlier.now ≤ call.now := by
        rcases List.mem_append.mp member with old | new
        · exact counts.past earlier old
        · rw [List.mem_singleton.mp new]
      omega
    · intro first
      rw [grantedWithin_concat]
      have before := counts.bounded first
      split
      · rename_i inside
        have start : firstCounted (segmentLength window segments) segments call.now ≤ first := by
          unfold firstCounted
          omega
        have := grantedWithin_le_grantedFrom (segmentLength window segments) segments
          served.granted start
        rcases admits with ⟨zero, -⟩ | ⟨-, fits⟩ <;> omega
      · omega
  · rw [if_neg granted]
    refine ⟨counts.past, ?_, ?_, counts.bounded⟩
    · intro first from'
      rw [found, added first from', counts.counts first from']
      simp [granted]
    · intro left leaves
      refine ⟨_, (lives left leaves).1, ?_⟩
      intro earlier member
      have := counts.past earlier member
      omega

theorem sliding_bounded (positive : 0 < segments)
    (covered : segments * segmentLength window segments ≤
      milliseconds window + segmentLength window segments + lag)
    {history : List Call} (ordered : Ordered history) (first : ℕ) :
    grantedWithin (segmentLength window segments) segments first
      (serveAll (sliding lag limit window segments) history).granted ≤ limit := by
  obtain ⟨now, past⟩ := exists_past history
  have counts : Counts lag limit window segments now
      (serveAll (sliding lag limit window segments) history) := by
    apply invariant_of_serve (sliding lag limit window segments) _ _ _ ordered past
    · exact fun _ => Counts.initially
    · exact fun _ _ _ => Counts.waits positive covered
    · exact fun _ _ => Counts.serves positive
  exact counts.bounded first

/-- As many calls as the limit admits are granted at once. -/
theorem sliding_fills (lag : ℕ) (window : TimeSpan) (positive : 0 < segments) {calls : ℕ}
    (le : calls ≤ limit) :
    Counts lag limit window segments 0
        (serveAll (sliding lag limit window segments) (List.replicate calls ⟨0, 1⟩)) ∧
      (serveAll (sliding lag limit window segments) (List.replicate calls ⟨0, 1⟩)).granted =
        List.replicate calls ⟨0, 1⟩ := by
  induction calls with
  | zero => exact ⟨Counts.initially, rfl⟩
  | succ calls inductionHypothesis =>
      obtain ⟨counts, granted⟩ := inductionHypothesis (by omega)
      rw [List.replicate_succ', serveAll_concat]
      refine ⟨@Counts.serves lag limit segments window ⟨0, 1⟩ _ positive counts, ?_⟩
      have acquired : (sliding lag limit window segments ⟨0, 1⟩
          (serveAll (sliding lag limit window segments)
            (List.replicate calls ⟨0, 1⟩)).key).2.isAcquired = true := by
        apply (sliding_isAcquired ..).mpr
        have counted : countedAt lag window segments 0 _ = _ := counts.counts _ (le_refl _)
        have few := grantedFrom_le (segmentLength window segments)
          (firstCounted (segmentLength window segments) segments 0) (List.replicate calls ⟨0, 1⟩)
        rw [permits_replicate, Nat.mul_one] at few
        refine .inr ⟨Nat.one_pos, ?_⟩
        rw [counted, granted]
        change _ + 1 ≤ limit
        omega
      unfold Served.serve
      rw [if_pos acquired, granted]

/-- A key that is lost while its segments are counted grants the limit and one permit more. -/
theorem sliding_exceeds (positive : 0 < segments) (limitPositive : 0 < limit)
    (short : milliseconds window + segmentLength window segments + lag <
      segments * segmentLength window segments) :
    ∃ history, Ordered history ∧
      limit < grantedWithin (segmentLength window segments) segments 0
        (serveAll (sliding lag limit window segments) history).granted := by
  obtain ⟨calls, rfl⟩ : ∃ calls, limit = calls + 1 := ⟨limit - 1, by omega⟩
  have lengthPositive := segmentLength_pos window positive
  let last : Call := ⟨segments * segmentLength window segments - 1, 1⟩
  refine ⟨List.replicate (calls + 1) ⟨0, 1⟩ ++ [last], ?_, ?_⟩
  · apply List.pairwise_append.mpr
    refine ⟨List.pairwise_replicate.mpr (.inr (Nat.le_refl _)), List.pairwise_singleton _ _, ?_⟩
    intro earlier member _ _
    rw [List.eq_of_mem_replicate member]
    exact Nat.zero_le _
  · obtain ⟨-, granted⟩ := sliding_fills lag window positive (le_refl (calls + 1))
    have gone : Redis.find lag last.now
        (serveAll (sliding lag (calls + 1) window segments)
          (List.replicate (calls + 1) ⟨0, 1⟩)).key = none := by
      cases equation : Redis.find lag last.now _ with
      | none => rfl
      | some found =>
          obtain ⟨leaves, alive⟩ := Redis.find_some.mp equation
          rw [List.replicate_succ', serveAll_concat] at leaves
          have expires := (sliding_lives _ _ _ _ _ positive found leaves).1
          have := alive _ expires
          change segments * segmentLength window segments - 1 <
            0 + (milliseconds window + segmentLength window segments) + lag at this
          omega
    have acquired : (sliding lag (calls + 1) window segments last
        (serveAll (sliding lag (calls + 1) window segments)
          (List.replicate (calls + 1) ⟨0, 1⟩)).key).2.isAcquired = true := by
      apply (sliding_isAcquired ..).mpr
      refine .inr ⟨Nat.one_pos, ?_⟩
      unfold countedAt
      rw [gone, Redis.hgetall_none]
      exact Nat.add_le_add_right (Nat.zero_le calls) 1
    have within : grantedWithin (segmentLength window segments) segments 0
        (List.replicate (calls + 1) ⟨0, 1⟩) = calls + 1 := by
      unfold grantedWithin
      rw [List.filter_eq_self.mpr, permits_replicate, Nat.mul_one]
      intro call member
      rw [List.eq_of_mem_replicate member]
      simp [positive]
    rw [serveAll_concat]
    unfold Served.serve
    rw [if_pos acquired, granted, grantedWithin_concat, within, if_pos]
    · exact Nat.lt_succ_self _
    · refine ⟨Nat.zero_le _, ?_⟩
      rw [Nat.zero_add]
      apply Nat.div_lt_of_lt_mul
      rw [Nat.mul_comm (segmentLength window segments) segments]
      exact Nat.sub_lt (Nat.mul_pos positive lengthPositive) Nat.one_pos

end Sliding

/-- With two segments or more, no run of as many consecutive segments as a window has grants more
than the limit, in any history, just if these segments are over when the key is lost. -/
theorem generalLimiter_bounded_iff (lag : ℕ) (options : RateLimitOptions)
    (several : 2 ≤ options.generalSegmentsPerWindow) :
    (∀ history, Ordered history → ∀ first,
      grantedWithin (segmentLength options.general.window options.generalSegmentsPerWindow)
        options.generalSegmentsPerWindow first
        (serveAll (generalLimiter lag options).acquire history).granted ≤
          options.general.permitLimit) ↔
      options.generalSegmentsPerWindow *
          segmentLength options.general.window options.generalSegmentsPerWindow ≤
        milliseconds options.general.window +
          segmentLength options.general.window options.generalSegmentsPerWindow + lag := by
  rw [generalLimiter_of_several (by omega)]
  constructor
  · intro bounded
    by_contra short
    obtain ⟨history, ordered, exceeds⟩ := sliding_exceeds
      options.generalSegmentsPerWindow_range.1 options.general.permitLimit_range.1
      (Nat.lt_of_not_le short)
    exact absurd (bounded history ordered 0) (Nat.not_le_of_lt exceeds)
  · intro covered history ordered first
    exact sliding_bounded options.generalSegmentsPerWindow_range.1 covered ordered first

theorem generalLimiter_bounded_iff_sample :
    grantedWithin (segmentLength (.ofSeconds 60) 6) 6 170000000
      (serveAll (generalLimiter 1 .defaults).acquire
        [⟨1700000000000, 60⟩, ⟨1700000030000, 60⟩]).granted ≤ 100 :=
  (generalLimiter_bounded_iff 1 .defaults (by decide)).mpr (by decide)
    [⟨1700000000000, 60⟩, ⟨1700000030000, 60⟩] (by decide) 170000000

/-- With sixty segments of 17 milliseconds in a second, the key is lost in the last of them. -/
theorem generalLimiter_exceeds :
    let options : RateLimitOptions :=
      { RateLimitOptions.defaults with
        general := ⟨1, .ofSeconds 1, by decide, by decide⟩
        generalSegmentsPerWindow := 60
        generalSegmentsPerWindow_range := by decide }
    let history : List Call := [⟨1700000000000, 1⟩, ⟨1700000001019, 1⟩]
    Ordered history ∧
      options.general.permitLimit <
        grantedWithin (segmentLength options.general.window options.generalSegmentsPerWindow)
          options.generalSegmentsPerWindow 100000000000
          (serveAll (generalLimiter 1 options).acquire history).granted := by
  decide +kernel

end AuthStartpack.RateLimiting
