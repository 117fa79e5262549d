import AuthStartpack.Program.Pool
import AuthStartpack.Refresh.Rotation

/-!
Owns what concurrent rotations guarantee. The read, the check and the write of
`RotateAsync` are separate steps and no concurrency token links them, so two
calls that present one token can both rotate it. As long as no other commit has
marked the row of the token since a call read it, the check of that call holds
at its commit: a token is spent by one call and a session keeps at most one live
token.
-/

namespace AuthStartpack

/-- Unspent, and not expired by `since`. -/
structure RefreshToken.Live (since : Instant) (token : RefreshToken) : Prop where
  unspent : token.usedAt = none
  unexpired : since < token.expiresAt

instance (since : Instant) (token : RefreshToken) : Decidable (token.Live since) :=
  decidable_of_iff (token.usedAt = none ∧ since < token.expiresAt)
    ⟨fun ⟨unspent, unexpired⟩ => ⟨unspent, unexpired⟩,
      fun ⟨unspent, unexpired⟩ => ⟨unspent, unexpired⟩⟩

/-- A session has at most one live token. -/
def OneLiveToken (since : Instant) (tokens : List RefreshToken) : Prop :=
  ∀ left ∈ tokens, ∀ right ∈ tokens, left.sessionId = right.sessionId →
    left.Live since → right.Live since → left = right

instance (since : Instant) (tokens : List RefreshToken) : Decidable (OneLiveToken since tokens) :=
  inferInstanceAs (Decidable (∀ left ∈ tokens, ∀ right ∈ tokens, left.sessionId = right.sessionId →
    left.Live since → right.Live since → left = right))

namespace RefreshTokenService

/-- A commit that spends a token finds in its row the `UsedAt` that the rotation had read. -/
def UsedAtAsRead (db : Db) : Event → Prop
  | .refreshTokenSpent token =>
      ∀ row ∈ db.refreshTokens, row.id = token.id → row.usedAt = token.usedAt
  | _ => True

instance (db : Db) : DecidablePred (UsedAtAsRead db) := by
  intro event
  unfold UsedAtAsRead
  split <;> infer_instance

/-- The steps that are considered: no faults, clock readings from `since` on, and between the SELECT
of a call and its commit no other commit changes `UsedAt` of the token. -/
structure SpendsAsRead (since : Instant) (state : State) (call : ℕ) (input : Input)
    (events : List Event) : Prop where
  faultless : input.transient = false
  clock : since ≤ input.now
  unchanged : ∀ event ∈ events, UsedAtAsRead state.store.db event

instance (since : Instant) (state : State) (call : ℕ) (input : Input) (events : List Event) :
    Decidable (SpendsAsRead since state call input events) :=
  decidable_of_iff (input.transient = false ∧ since ≤ input.now ∧
    ∀ event ∈ events, UsedAtAsRead state.store.db event)
    ⟨fun ⟨faultless, clock, unchanged⟩ => ⟨faultless, clock, unchanged⟩,
      fun ⟨faultless, clock, unchanged⟩ => ⟨faultless, clock, unchanged⟩⟩

/-- The invariant of concurrent rotations. -/
structure SingleUse (since : Instant) (state : State) : Prop where
  ids : Table.Keyed RefreshToken.id state.store.db.refreshTokens
  hashes : Table.Keyed RefreshToken.tokenHash state.store.db.refreshTokens
  live : OneLiveToken since state.store.db.refreshTokens
  clock : since ≤ state.last.now
  spent : ∀ entry ∈ state.journal, ∀ token, entry.event = .refreshTokenSpent token →
    ∃ row ∈ state.store.db.refreshTokens, row.id = token.id ∧ row.usedAt ≠ none
  once : ∀ left ∈ state.journal, ∀ right ∈ state.journal, ∀ token other,
    left.event = .refreshTokenSpent token → right.event = .refreshTokenSpent other →
    token.id = other.id → left.call = right.call

/-- Tokens stay, with their identity, and so does the journal. -/
structure Persists (before after : State) : Prop where
  tokens : ∀ row ∈ before.store.db.refreshTokens, ∃ later ∈ after.store.db.refreshTokens,
    later.id = row.id ∧ later.tokenHash = row.tokenHash ∧ later.sessionId = row.sessionId ∧
      later.expiresAt = row.expiresAt
  journal : ∀ entry ∈ before.journal, entry ∈ after.journal

/-- What every step of a rotation keeps. -/
def Progress (since : Instant) (before after : State) : Prop :=
  SingleUse since before → SingleUse since after ∧ Persists before after

section Relation

variable {since : Instant}

theorem Persists.refl (state : State) : Persists state state :=
  ⟨fun row member => ⟨row, member, rfl, rfl, rfl, rfl⟩, fun _ member => member⟩

theorem Persists.trans {first second third : State} (early : Persists first second)
    (late : Persists second third) : Persists first third := by
  refine ⟨?_, fun entry member => late.journal entry (early.journal entry member)⟩
  intro row member
  obtain ⟨next, nextMember, id, hash, session, expiry⟩ := early.tokens row member
  obtain ⟨last, lastMember, id', hash', session', expiry'⟩ := late.tokens next nextMember
  exact ⟨last, lastMember, id'.trans id, hash'.trans hash, session'.trans session,
    expiry'.trans expiry⟩

theorem Progress.refl (state : State) : Progress since state state :=
  fun holds => ⟨holds, .refl state⟩

theorem Progress.trans (first second third : State) (early : Progress since first second)
    (late : Progress since second third) : Progress since first third := by
  intro holds
  obtain ⟨between, persists⟩ := early holds
  obtain ⟨after, persistsLater⟩ := late between
  exact ⟨after, persists.trans persistsLater⟩

/-- A step that keeps the tokens and spends none. -/
theorem Progress.of_tokens_eq {state : State} {call : ℕ} {input : Input} {world : World}
    {events : List Event} (clock : since ≤ input.now)
    (tokens : world.db.refreshTokens = state.store.db.refreshTokens)
    (noSpend : ∀ token, .refreshTokenSpent token ∉ events) :
    Progress since state (state.advance call input (world, events)) := by
  intro holds
  have old : ∀ entry ∈ (state.advance call input (world, events)).journal, ∀ token,
      entry.event = .refreshTokenSpent token → entry ∈ state.journal := by
    intro entry member token spends
    simp only [Shared.advance_journal, List.mem_append, List.mem_map] at member
    rcases member with earlier | ⟨event, reported, rfl⟩
    · exact earlier
    · simp only at spends
      subst spends
      exact absurd reported (noSpend token)
  refine ⟨⟨?_, ?_, ?_, clock, ?_, ?_⟩, ?_, ?_⟩
  · simpa [tokens] using holds.ids
  · simpa [tokens] using holds.hashes
  · simpa [tokens] using holds.live
  · intro entry member token spends
    simpa [tokens] using holds.spent entry (old entry member token spends) token spends
  · intro left leftMember right rightMember token other leftSpends rightSpends same
    exact holds.once left (old left leftMember token leftSpends) right
      (old right rightMember other rightSpends) token other leftSpends rightSpends same
  · intro row member
    exact ⟨row, by simpa [tokens] using member, rfl, rfl, rfl, rfl⟩
  · intro entry member
    simp [member]

/-- The commit of a rotation that finds its token unspent. -/
theorem Progress.of_rotation {state : State} {call : ℕ} {input : Input}
    {stored successor : RefreshToken} {session : Session} {now savedAt : Instant} {db : Db}
    (commits : RotationCommits stored successor session now savedAt state.store.db db)
    (unused : stored.usedAt = none) (unexpired : now < stored.expiresAt) (begun : since ≤ now)
    (successorOf : successor.sessionId = stored.sessionId)
    (row : RefreshToken) (member : row ∈ state.store.db.refreshTokens) (same : row.id = stored.id)
    (sameSession : row.sessionId = stored.sessionId) (sameExpiry : row.expiresAt = stored.expiresAt)
    (unspent : row.usedAt = none) (clock : since ≤ input.now) :
    Progress since state (state.advance call input
      ({ state.store with db }, [.refreshTokenSpent stored])) := by
  intro holds
  have only : ∀ other ∈ state.store.db.refreshTokens, other.id = stored.id → other = row :=
    fun other otherMember otherSame =>
      holds.ids.eq_of_key otherMember member (otherSame.trans same.symm)
  -- Any other live token of the session would have lived beside the one that is spent.
  have alone : ∀ other ∈ state.store.db.refreshTokens, other.sessionId = successor.sessionId →
      other.Live since → other.id = stored.id := by
    intro other otherMember otherSession otherLive
    have lasts : since < row.expiresAt := by
      rw [sameExpiry]
      exact Int.lt_of_le_of_lt begun unexpired
    have rowLive : row.Live since := ⟨unspent, lasts⟩
    have equal := holds.live other otherMember row member
      (by rw [otherSession, successorOf, sameSession]) otherLive rowLive
    rw [equal, same]
  have tokens : (state.advance call input ({ state.store with db },
      [.refreshTokenSpent stored])).store.db.refreshTokens =
        rotatedTokens stored successor now savedAt state.store.db.refreshTokens := by
    rw [Shared.advance_store, commits.after_eq]
  have spentNow : spentRow stored now savedAt successor.id row ∈
      rotatedTokens stored successor now savedAt state.store.db.refreshTokens :=
    mem_rotatedTokens_of_spent member same
  have stillSpent : ∀ entry ∈ state.journal, ∀ token, entry.event = .refreshTokenSpent token →
      token.id ≠ stored.id := by
    intro entry entryMember token spends equal
    obtain ⟨spentToken, spentMember, spentId, used⟩ := holds.spent entry entryMember token spends
    rw [only spentToken spentMember (spentId.trans equal)] at used
    exact used unspent
  refine ⟨⟨?_, ?_, ?_, clock, ?_, ?_⟩, ?_, ?_⟩
  · rw [tokens]
    exact keyed_rotatedTokens holds.ids (fun _ => rfl) commits.freshId
  · rw [tokens]
    exact keyed_rotatedTokens holds.hashes (fun _ => spentRow_tokenHash _) commits.freshHash
  · rw [tokens]
    intro left leftMember right rightMember sessions leftLive rightLive
    have cases : ∀ token ∈ rotatedTokens stored successor now savedAt
        state.store.db.refreshTokens, token.Live since →
        (token ∈ state.store.db.refreshTokens ∧ token.id ≠ stored.id) ∨
          token = { successor with createdAt := savedAt, updatedAt := savedAt } := by
      intro token tokenMember tokenLive
      rcases mem_rotatedTokens_cases tokenMember with old | ⟨origin, -, -, rfl⟩ | new
      · exact .inl old
      · have used := tokenLive.unspent
        rw [spentRow_usedAt unused] at used
        cases used
      · exact .inr new
    rcases cases left leftMember leftLive with ⟨leftOld, leftOther⟩ | leftNew <;>
      rcases cases right rightMember rightLive with ⟨rightOld, rightOther⟩ | rightNew
    · exact holds.live left leftOld right rightOld sessions leftLive rightLive
    · subst rightNew
      exact absurd (alone left leftOld sessions leftLive) leftOther
    · subst leftNew
      exact absurd (alone right rightOld sessions.symm rightLive) rightOther
    · rw [leftNew, rightNew]
  · rw [tokens]
    intro entry entryMember token spends
    simp only [Shared.advance_journal, List.mem_append, List.mem_map, List.mem_singleton]
      at entryMember
    rcases entryMember with earlier | ⟨event, rfl, rfl⟩
    · obtain ⟨spentToken, spentMember, spentId, used⟩ := holds.spent entry earlier token spends
      refine ⟨spentToken, mem_rotatedTokens_of_other spentMember ?_, spentId, used⟩
      rw [spentId]
      exact stillSpent entry earlier token spends
    · cases spends
      exact ⟨_, spentNow, same, by simp [spentRow_usedAt unused]⟩
  · intro left leftMember right rightMember token other leftSpends rightSpends sameToken
    simp only [Shared.advance_journal, List.mem_append, List.mem_map, List.mem_singleton]
      at leftMember rightMember
    rcases leftMember with leftOld | ⟨_, rfl, rfl⟩ <;>
      rcases rightMember with rightOld | ⟨_, rfl, rfl⟩
    · exact holds.once left leftOld right rightOld token other leftSpends rightSpends sameToken
    · cases rightSpends
      exact absurd sameToken (stillSpent left leftOld _ leftSpends)
    · cases leftSpends
      exact absurd sameToken.symm (stillSpent right rightOld _ rightSpends)
    · rfl
  · rw [tokens]
    intro token tokenMember
    by_cases isStored : token.id = stored.id
    · rw [only token tokenMember isStored]
      exact ⟨_, spentNow, rfl, spentRow_tokenHash _, rfl, spentRow_expiresAt _⟩
    · exact ⟨token, mem_rotatedTokens_of_other tokenMember isStored, rfl, rfl, rfl, rfl⟩
  · intro entry entryMember
    simp [entryMember]

end Relation

/-- The call has returned `Rotated`. -/
def Rotated : Except AppException RefreshResult → Prop
  | .ok result => result.outcome = .rotated
  | .error _ => False

instance : DecidablePred Rotated := fun outcome =>
  match outcome with
  | .ok result => inferInstanceAs (Decidable (result.outcome = .rotated))
  | .error _ => isFalse id

/-- What a call that presented `token` has done when it ends. -/
structure Spender (services : Services) (token : String) (since : Instant) (call : ℕ)
    (outcome : Except AppException RefreshResult) (state : State) : Prop where
  holds : SingleUse since state
  spent : Rotated outcome → ∃ entry ∈ state.journal, entry.call = call ∧
    ∃ stored, entry.event = .refreshTokenSpent stored ∧ ∃ row ∈ state.store.db.refreshTokens,
      row.tokenHash = services.tokenGenerator.hash token ∧ row.id = stored.id

theorem calm_progress (since : Instant) (call : ℕ) :
    Calm (.concurrent (SpendsAsRead since) (Progress since)) call
      fun before after => Progress since before after ∧
        ∀ entry ∈ after.journal, entry.call = call → entry ∈ before.journal := by
  refine Calm.concurrent call Progress.refl Progress.trans ?_
  intro state input world admitted step
  obtain ⟨auditLogEntries, equal⟩ := step.db
  refine Progress.of_tokens_eq admitted.clock (by rw [equal]) ?_
  simp

/-- Each call keeps the relation and records the token it spends. -/
theorem rotateAsync_progress {since : Instant} {services : Services} {http : HttpContext}
    {token : String} {call : ℕ} {start : State} (holds : SingleUse since start) :
    (rotateAsync services http token).wp (.concurrent (SpendsAsRead since) (Progress since)) call
      (Spender services token since call) start := by
  have calm := calm_progress since call
  refine wp_rotateAsync calm (fun _ _ _ admitted => admitted.faultless) ?_
  constructor
  case refused =>
    intro seen later result see refusal rests
    refine ⟨(rests.1 (see.1 holds).1).1, ?_⟩
    intro rotated
    cases refusal with
    | notFound missing => cases rotated
    | unspent outcome found unused different => exact absurd rotated different.1
  case threw =>
    intro seen later exception see _ _ _ rests
    exact ⟨(rests.1 (see.1 holds).1).1, False.elim⟩
  case replayed =>
    intro seen read current input stored session savedAt db see found used reading reached admitted
      saved
    have rows : db.refreshTokens = current.store.db.refreshTokens := by
      rw [replayChanges_ok saved]
    have kept : Progress since current (current.advance call input
        ({ current.store with db }, [.reuseCommitted read.last.now])) :=
      Progress.of_tokens_eq admitted.clock rows (by simp)
    refine ⟨kept, ?_⟩
    intro later rests
    have before := (reached.1 (reading.1 (see.1 holds).1).1).1
    exact ⟨(rests.1 (kept before).1).1, fun rotated => nomatch rotated⟩
  case replayFailed =>
    intro seen read current later stored session savedAt exception see found used reading reached
      failed rests
    exact ⟨(rests.1 (reached.1 (reading.1 (see.1 holds).1).1).1).1, False.elim⟩
  case rotated =>
    intro seen read stamped drawn current input stored session successor savedAt db see found
      reading accepted stamp same draw reach admitted saved
    obtain ⟨tokenMember, tokenHash, -, owner⟩ := presented_eq_single found
    have seenHolds := (see.1 holds).1
    have readHolds := (reading.1 seenHolds).1
    have between := calm.trans _ _ _ (calm.trans _ _ _ stamp draw.reached) reach
    have currentHolds := (between.1 readHolds).1
    obtain ⟨row, rowMember, rowId, rowHash, rowSession, rowExpiry⟩ :=
      ((calm.trans _ _ _ reading between).1 seenHolds).2.tokens stored tokenMember
    -- The check of the code was on the row as read, which is the row of now.
    have unspent : row.usedAt = none := by
      have unchanged := admitted.unchanged (.refreshTokenSpent stored) List.mem_cons_self
      rw [unchanged row rowMember rowId]
      exact accepted.unused
    have commits := rotationChanges_ok accepted.unused saved
    have kept : Progress since current (current.advance call input
        ({ current.store with db }, [.refreshTokenSpent stored])) :=
      Progress.of_rotation commits accepted.unused accepted.unexpired readHolds.clock
        (draw.owner.trans owner) row rowMember rowId rowSession rowExpiry unspent admitted.clock
    refine ⟨kept, ?_⟩
    intro later access refresh rests
    have committed := (kept currentHolds).1
    refine ⟨(rests.1 committed).1, ?_⟩
    intro _
    have persists := (rests.1 committed).2
    obtain ⟨spentToken, spentMember, spentId, spentHash, -, -⟩ :=
      ((kept currentHolds).2.trans persists).tokens row rowMember
    exact ⟨⟨call, input, .refreshTokenSpent stored⟩, persists.journal _ (by simp), rfl, stored, rfl,
      spentToken, spentMember, by rw [spentHash, rowHash, tokenHash], spentId.trans rowId⟩

/-! ### Any number of calls, in any interleaving -/

/-- Calls of `RotateAsync` that have not begun. -/
def inFlight (services : Services) (requests : List (HttpContext × String)) (world : World)
    (last : Input) : Pool Input World Event AppException RefreshResult where
  shared := Shared.initial world last
  calls := requests.map fun request => rotateAsync services request.1 request.2

/-- No two of the calls that present one token have returned `Rotated`. -/
def SpentAtMostOnce (requests : List (HttpContext × String))
    (pool : Pool Input World Event AppException RefreshResult) : Prop :=
  ∀ left right leftRequest rightRequest leftOutcome rightOutcome,
    requests[left]? = some leftRequest → requests[right]? = some rightRequest →
    leftRequest.2 = rightRequest.2 →
    pool.outcome? left = some leftOutcome → Rotated leftOutcome →
    pool.outcome? right = some rightOutcome → Rotated rightOutcome → left = right

section Interleaving

variable (services : Services) (requests : List (HttpContext × String)) (since : Instant)
variable (world : World) (last : Input)

/-- What each call read before its commit is what it commits to: then a token is rotated by at most
one call, and a session has at most one live token. -/
theorem spentAtMostOnce_of_asRead (schedule : List (ℕ × Input))
    (ids : Table.Keyed RefreshToken.id world.db.refreshTokens)
    (hashes : Table.Keyed RefreshToken.tokenHash world.db.refreshTokens)
    (live : OneLiveToken since world.db.refreshTokens) (clock : since ≤ last.now)
    (admitted : (inFlight services requests world last).Admitted (SpendsAsRead since) schedule) :
    SpentAtMostOnce requests ((inFlight services requests world last).run schedule) ∧
      OneLiveToken since
        ((inFlight services requests world last).run schedule).shared.store.db.refreshTokens := by
  have initial : SingleUse since (inFlight services requests world last).shared :=
    { ids, hashes, live, clock
      spent := by simp [inFlight, Shared.initial]
      once := by simp [inFlight, Shared.initial] }
  have begun : (inFlight services requests world last).Verified (SpendsAsRead since)
      (Progress since)
      (fun call outcome state => ∀ request, requests[call]? = some request →
        Spender services request.2 since call outcome state) := by
    refine Pool.verified_of_wp Progress.refl ?_
    intro call program found
    simp only [inFlight, List.getElem?_map, Option.map_eq_some_iff] at found
    obtain ⟨request, position, rfl⟩ := found
    refine Program.wp_mono (rotateAsync_progress initial) ?_
    intro outcome state spender other otherPosition
    rw [position, Option.some.injEq] at otherPosition
    rw [← otherPosition]
    exact spender
  obtain ⟨progress, verified⟩ := Pool.run_wp Progress.refl Progress.trans begun admitted
  have final := (progress initial).1
  refine ⟨?_, final.live⟩
  intro left right leftRequest rightRequest leftOutcome rightOutcome leftPosition rightPosition
    sameToken leftEnded leftRotated rightEnded rightRotated
  obtain ⟨leftEnd, leftSince, -, leftSpender⟩ := verified.outcome leftEnded
  obtain ⟨rightEnd, rightSince, -, rightSpender⟩ := verified.outcome rightEnded
  have leftSpent := leftSpender leftRequest leftPosition
  have rightSpent := rightSpender rightRequest rightPosition
  obtain ⟨leftEntry, leftMember, leftCall, leftRead, leftEvent, leftRow, leftRowMember, leftHash,
    leftOwn⟩ := leftSpent.spent leftRotated
  obtain ⟨rightEntry, rightMember, rightCall, rightRead, rightEvent, rightRow, rightRowMember,
    rightHash, rightOwn⟩ := rightSpent.spent rightRotated
  have leftLater := (leftSince leftSpent.holds).2
  have rightLater := (rightSince rightSpent.holds).2
  obtain ⟨leftFinal, leftFinalMember, leftId, leftFinalHash, -, -⟩ :=
    leftLater.tokens leftRow leftRowMember
  obtain ⟨rightFinal, rightFinalMember, rightId, rightFinalHash, -, -⟩ :=
    rightLater.tokens rightRow rightRowMember
  have sameRow : leftFinal = rightFinal :=
    final.hashes.eq_of_key leftFinalMember rightFinalMember
      (by rw [leftFinalHash, rightFinalHash, leftHash, rightHash, sameToken])
  have sameId : leftRead.id = rightRead.id := by
    rw [← leftOwn, ← rightOwn, ← leftId, ← rightId, sameRow]
  rw [← leftCall, ← rightCall]
  exact final.once leftEntry (leftLater.journal _ leftMember) rightEntry
    (rightLater.journal _ rightMember) leftRead rightRead leftEvent rightEvent sameId

end Interleaving

/-- Two calls that present the first token of the sample session. -/
def twoPresentations : Pool Input World Event AppException RefreshResult :=
  inFlight .sample [({}, "first"), ({}, "first")] sampleWorld ⟨10, false⟩

/-- The second call begins once the first has ended. -/
def oneAfterTheOther : List (ℕ × Input) :=
  List.replicate 14 (0, ⟨10, false⟩) ++ List.replicate 10 (1, ⟨10, false⟩)

/-- Both calls read the token before either spends it. -/
def bothReadFirst : List (ℕ × Input) :=
  List.replicate 2 (0, ⟨10, false⟩) ++ List.replicate 2 (1, ⟨10, false⟩) ++
    List.replicate 12 (0, ⟨10, false⟩) ++ List.replicate 12 (1, ⟨10, false⟩)

set_option maxRecDepth 10000 in
theorem spentAtMostOnce_of_asRead_sample :
    SpentAtMostOnce [({}, "first"), ({}, "first")] (twoPresentations.run oneAfterTheOther) ∧
      OneLiveToken 10 (twoPresentations.run oneAfterTheOther).shared.store.db.refreshTokens :=
  spentAtMostOnce_of_asRead .sample [({}, "first"), ({}, "first")] 10 sampleWorld ⟨10, false⟩
    oneAfterTheOther (by decide) (by decide) (by decide) (by decide)
    (Pool.admitted_of_admitted? (by decide))

set_option maxRecDepth 10000 in
/-- Without the condition a token is spent twice and leaves two live successors. -/
theorem spent_twice_when_both_read_first :
    OneLiveToken 10 twoPresentations.shared.store.db.refreshTokens ∧
      twoPresentations.Admitted (fun _ _ input _ => input = ⟨10, false⟩) bothReadFirst ∧
      ¬ SpentAtMostOnce [({}, "first"), ({}, "first")] (twoPresentations.run bothReadFirst) ∧
      ¬ OneLiveToken 10 (twoPresentations.run bothReadFirst).shared.store.db.refreshTokens := by
  refine ⟨by decide, Pool.admitted_of_admitted? (by decide), ?_, by decide⟩
  intro once
  have rotatedBoth : ∀ call ∈ [0, 1], ∃ outcome,
      (twoPresentations.run bothReadFirst).outcome? call = some outcome ∧ Rotated outcome := by
    have evaluated : ∀ call ∈ [0, 1],
        ((twoPresentations.run bothReadFirst).outcome? call).any (Rotated ·) = true := by decide
    intro call member
    simpa [Option.any_eq_true] using evaluated call member
  obtain ⟨_, leftEnded, leftRotated⟩ := rotatedBoth 0 (by simp)
  obtain ⟨_, rightEnded, rightRotated⟩ := rotatedBoth 1 (by simp)
  have same := once 0 1 _ _ _ _ rfl rfl rfl leftEnded leftRotated rightEnded rightRotated
  cases same

end RefreshTokenService

end AuthStartpack
