import AuthStartpack.Program.Pool
import AuthStartpack.Refresh.Tracking
import AuthStartpack.Sessions.Refinement

/-!
Owns the finality of a revocation under concurrency. Whatever the calls in
flight still write, no save takes a revocation back and no token changes its
session. So a rotation that begins after a revocation finds the session revoked
in every one of its attempts, also for a successor that was committed later.
-/

namespace AuthStartpack

/-- What every step of a rotation or a revocation keeps. -/
structure Finality (before after : State) : Prop where
  supply : before.store.supply ≤ after.store.supply
  saves : SaveKeeps after.store.supply before.store.db after.store.db

namespace Finality

theorem refl (state : State) : Finality state state := ⟨Nat.le_refl _, .refl _⟩

theorem trans (first second third : State) (early : Finality first second)
    (late : Finality second third) : Finality first third :=
  ⟨Nat.le_trans early.supply late.supply, (early.saves.mono late.supply).trans late.saves⟩

end Finality

/-- Any interleaving, with any faults. -/
def Law.final : Law Input World Event := .concurrent (fun _ _ _ _ => True) Finality

instance (call : ℕ) : Calm .final call Finality where
  refl := Finality.refl
  trans := Finality.trans
  rely _ _ relied := relied.1
  quiet state input world _ step := by
    have kept : Finality state (state.advance call input (world, [])) := by
      obtain ⟨auditLogEntries, equal⟩ := step.db
      refine ⟨step.supply, ?_⟩
      rw [Shared.advance_store, equal]
      exact .of_sessions (.refl _) rfl rfl
    exact ⟨kept, kept⟩

/-- A write that keeps what a save keeps. -/
theorem Finality.of_write {state : State} {call : ℕ} {input : Input} {events : List Event} {db : Db}
    (keeps : SaveKeeps state.store.supply state.store.db db) :
    Finality state (state.advance call input ({ state.store with db }, events)) :=
  ⟨Nat.le_refl _, keeps⟩

namespace Keeps

variable {count : Db → ℕ}

/-- A bulk statement. -/
theorem final_execute {write : Db → Db} {events : Db → List Event}
    (keeps : ∀ bound db, SaveKeeps bound db (write db)) :
    Keeps .final Finality (Action.execute count write events) := by
  refine execute ?_
  intro call start current input relied _
  have written : Finality current (current.advance call input
      ({ current.store with db := write current.store.db }, events current.store.db)) :=
    .of_write (keeps _ _)
  exact ⟨written, relied.1.trans _ _ _ written⟩

/-- A bulk update of sessions that takes no revocation back. -/
theorem final_sessions {pred : Session → Bool} {write : Session → Session}
    (keepsId : ∀ row, (write row).id = row.id)
    (keeps : ∀ row, row.revokedAt ≠ none → (write row).revokedAt ≠ none) :
    Keeps .final Finality (SessionService.updateSessions pred write) :=
  final_execute fun _ _ =>
    .of_sessions (.updateWhere keepsId keeps) (Table.map_updateWhere keepsId) rfl

/-- The revocation of sessions. -/
theorem final_revoke (pred : Session → Bool) (reason : SessionRevocationReason) (now : Instant) :
    Keeps .final Finality
      (SessionService.updateSessions pred (SessionService.revoked reason now)) :=
  final_sessions (fun _ => rfl) fun _ _ => Option.some_ne_none now

/-- The expiry of refresh tokens. -/
theorem final_expire (pred : RefreshToken → Bool) (now : Instant) :
    Keeps .final Finality (Action.execute count
      (fun db => { db with
        refreshTokens := Table.updateWhere pred ({ · with expiresAt := now }) db.refreshTokens })
      fun _ => []) :=
  final_execute fun _ _ => .of_tokens rfl rfl fun _ => ⟨rfl, rfl, rfl⟩

end Keeps

/-! ### Rotations -/

/-- A call of `RotateAsync` goes on from this state with this tracker, where the sessions in
`bars` are revoked. -/
structure Barred (bars : Guid → Prop) (tracker : ChangeTracker) (state : State) : Prop where
  sessions : ∀ session ∈ state.store.db.sessions, bars session.id → session.revokedAt ≠ none
  given : ∀ row ∈ state.store.db.refreshTokens, row.id < state.store.supply
  consistent : tracker.Consistent state.store.supply
  tracked : ∀ entry ∈ tracker.sessions, bars entry.current.id → entry.current.revokedAt ≠ none

namespace Barred

variable {bars : Guid → Prop} {tracker : ChangeTracker} {state : State}

/-- A call that begins has nothing tracked. -/
theorem starting
    (sessions : ∀ session ∈ state.store.db.sessions, bars session.id → session.revokedAt ≠ none)
    (given : ∀ row ∈ state.store.db.refreshTokens, row.id < state.store.supply) :
    Barred bars {} state where
  sessions := sessions
  given := given
  consistent := .empty
  tracked _ member := absurd member List.not_mem_nil

theorem later (barred : Barred bars tracker state) {after : State} (kept : Finality state after) :
    Barred bars tracker after := by
  refine ⟨?_, ?_, barred.consistent.mono kept.supply, barred.tracked⟩
  · intro session member barring
    obtain ⟨old, oldMember, same, stays⟩ := kept.saves.sessions session member
    rw [← same] at barring
    exact stays (barred.sessions old oldMember barring)
  · intro row member
    rcases kept.saves.given row member with below | ⟨old, oldMember, same⟩
    · exact below
    · rw [← same]
      exact Nat.lt_of_lt_of_le (barred.given old oldMember) kept.supply

theorem resolve (barred : Barred bars tracker state) {token : RefreshToken} {session : Session}
    (tokenMember : token ∈ state.store.db.refreshTokens)
    (sessionMember : session ∈ state.store.db.sessions) :
    Barred bars (tracker.resolve token session) state := by
  refine { barred with
    consistent := barred.consistent.resolve (barred.given token tokenMember), tracked := ?_ }
  intro entry member
  rcases Tracked.mem_resolve member with old | rfl
  · exact barred.tracked entry old
  · exact barred.sessions session sessionMember

/-- Assigning to a tracked session what takes no revocation back. -/
theorem assignSession (barred : Barred bars tracker state) {session assigned : Session}
    (instances : ∃ entry ∈ tracker.sessions, entry.current = session)
    (sameId : assigned.id = session.id)
    (revocation : assigned.revokedAt = none → session.revokedAt = none)
    (barring : bars session.id → assigned.revokedAt ≠ none) :
    Barred bars (tracker.assignSession assigned) state := by
  refine { barred with
    consistent := barred.consistent.assignSession sameId ?_, tracked := ?_ }
  · intro cleared
    rw [Tracked.instanceOf_self barred.consistent.sessionIds instances]
    exact revocation cleared
  · intro entry member
    rcases Tracked.mem_assign member with ⟨old, -⟩ | ⟨old, -, -, rfl⟩
    · exact barred.tracked entry old
    · intro barredId
      rw [sameId] at barredId
      exact barring barredId

theorem acceptAllChanges (barred : Barred bars tracker state) :
    Barred bars tracker.acceptAllChanges state := by
  refine { barred with consistent := barred.consistent.acceptAllChanges, tracked := ?_ }
  intro entry member
  obtain ⟨old, oldMember, rfl⟩ := List.mem_map.mp member
  exact barred.tracked old oldMember

end Barred

/-- A token with this hash is stored, and its session is not in `bars`. -/
def StoredElsewhere (bars : Guid → Prop) (hash : String) (state : State) : Prop :=
  ∃ row ∈ state.store.db.refreshTokens, row.tokenHash = hash ∧ ¬ bars row.sessionId

/-- What a call of `RotateAsync` may answer. -/
def RotatesElsewhere (bars : Guid → Prop) (hash : String) :
    Except AppException RefreshResult → State → Prop
  | .ok result, later => result.outcome = .rotated → StoredElsewhere bars hash later
  | .error _, _ => True

theorem StoredElsewhere.later {bars : Guid → Prop} {hash : String} {before after : State}
    (stored : StoredElsewhere bars hash before) (kept : Finality before after) :
    StoredElsewhere bars hash after := by
  obtain ⟨row, member, sameHash, free⟩ := stored
  obtain ⟨later, laterMember, laterHash, laterSession⟩ := kept.saves.tokens row member
  exact ⟨later, laterMember, laterHash.trans sameHash, by rwa [laterSession]⟩

namespace RefreshTokenService

section Rules

variable {services : Services} {http : HttpContext} {call : ℕ} {bars : Guid → Prop}
variable {hash : String} {tracker : ChangeTracker} {state : State}

/-- What one run of the delegate may end with. -/
abbrev Ends (bars : Guid → Prop) (hash : String) :
    Except AppException (Attempt ChangeTracker RefreshResult) → State → Prop :=
  Action.retrying (Barred bars) (RotatesElsewhere bars hash)

/-- Saving and committing a tracker that is barred. -/
theorem transaction_final {now : Instant} {event : Event} {results : RefreshResult → Prop}
    (barred : Barred bars tracker state)
    (reported : ∀ result later, results result → Finality state later →
      RotatesElsewhere bars hash (.ok result) later) :
    Transaction .final call Finality state tracker now event results (Ends bars hash) := by
  have faulted : ∀ current input events, Finality current
      (current.advance call input (current.store, events)) := by
    intro current input events
    exact .of_write (.refl _)
  constructor
  case saveFailed =>
    intro current input reached _ _
    exact ⟨faulted _ _ _, (barred.later reached).later (faulted _ _ _)⟩
  case commitFailed =>
    intro current input reached _ _
    exact ⟨faulted _ _ _, (barred.later reached).acceptAllChanges.later (faulted _ _ _)⟩
  case committed =>
    intro current input savedAt db reached _ saved
    have written : Finality current
        (current.advance call input ({ current.store with db }, [event])) :=
      .of_write ((barred.later reached).consistent.changes_keeps saved)
    refine ⟨written, ?_⟩
    intro result later answered rests
    exact reported result later answered ((reached.trans _ _ _ written).trans _ _ _ rests)
  case refused =>
    intro _ _ _ _ _ _ _
    trivial

theorem revokeReplayed_final {session : Session} {now : Instant}
    (barred : Barred bars tracker state)
    (instances : ∃ entry ∈ tracker.sessions, entry.current = session) :
    (revokeReplayed http tracker session now).wp .final call (Ends bars hash) state := by
  refine wp_revokeReplayed (K := Finality) inferInstance (transaction_final ?_ ?_)
  · exact barred.assignSession instances rfl nofun fun _ => nofun
  · rintro _ later rfl _ impossible
    cases impossible

theorem rotate_final {stored : RefreshToken} {session : Session} {now : Instant}
    (barred : Barred bars tracker state)
    (instances : ∃ entry ∈ tracker.sessions, entry.current = session)
    (storedInstances : ∃ entry ∈ tracker.refreshTokens, entry.current = stored)
    (free : ¬ bars session.id) (elsewhere : StoredElsewhere bars hash state) :
    (rotate services http tracker stored session now).wp .final call (Ends bars hash) state := by
  refine wp_rotate (K := Finality) inferInstance ?_ fun _ _ _ _ => trivial
  intro drawn ready successor draw readied
  obtain ⟨earlier, began, numbered⟩ := draw.numbered
  have reached := draw.reached.trans _ _ _ readied
  have spent : Barred bars (tracker.assignToken (spend stored now successor.id)) earlier := by
    have sameId : (spend stored now successor.id).id = stored.id := rfl
    refine { barred.later began with
      consistent := (barred.later began).consistent.assignToken sameId ?_ }
    rw [Tracked.instanceOf_self barred.consistent.tokenIds storedInstances]
    rfl
  have added :
      Barred bars ((tracker.assignToken (spend stored now successor.id)).addToken successor)
      ready := by
    refine { barred.later reached with consistent := ?_, tracked := spent.tracked }
    have given :
        ((tracker.assignToken (spend stored now successor.id)).addToken successor).Consistent
        (successor.id + 1) := spent.consistent.addToken (Nat.le_of_eq numbered.symm)
    rw [← draw.supply] at given
    exact given.mono readied.supply
  refine transaction_final ?_ ?_
  · exact added.assignSession instances rfl id fun barring => absurd barring free
  · rintro _ later ⟨access, refresh, -, rfl⟩ rests _
    exact (elsewhere.later reached).later rests

theorem judge_final {stored : RefreshToken} {session : Session} {now : Instant}
    (barred : Barred bars tracker state)
    (instances : ∃ entry ∈ tracker.sessions, entry.current = session)
    (storedInstances : ∃ entry ∈ tracker.refreshTokens, entry.current = stored)
    (elsewhere : ¬ bars session.id → StoredElsewhere bars hash state) :
    (judge services http tracker stored session now).wp .final call (Ends bars hash) state := by
  unfold judge
  split
  case isTrue => exact revokeReplayed_final barred instances
  split
  case isTrue => rintro ⟨⟩
  rename_i live
  have free : ¬ bars session.id := by
    obtain ⟨entry, member, rfl⟩ := instances
    intro barring
    exact live (Option.isSome_iff_ne_none.mpr (barred.tracked entry member barring))
  split
  case isTrue => rintro ⟨⟩
  split
  case isTrue => rintro ⟨⟩
  split
  case isTrue => rintro ⟨⟩
  simp only [Program.wp_bind]
  refine Action.calm_queryOrThrow (K := Finality) inferInstance ?_
  intro stamped stamp
  cases Action.single ((stamped.store.db.users.filter (·.id = session.userId)).map
      (·.securityStamp)) with
  | error exception => trivial
  | ok currentStamp =>
      simp only [Program.andThen_ok]
      split
      case isTrue => rintro ⟨⟩
      exact rotate_final (barred.later stamp) instances storedInstances free
        ((elsewhere free).later stamp)

theorem attempt_final (barred : Barred bars tracker state) :
    (attempt services http hash tracker).wp .final call (Ends bars hash) state := by
  simp only [attempt, Program.wp_bind]
  refine Action.calm_queryOrThrow (K := Finality) inferInstance ?_
  intro seen see
  have present := barred.later see
  cases found : presented hash seen.store.db with
  | nil => exact nofun
  | cons head tail =>
      obtain ⟨tokenRow, sessionRow⟩ := head
      cases tail with
      | cons other others => trivial
      | nil =>
          obtain ⟨tokenMember, tokenHash, sessionMember, owns⟩ := presented_eq_single found
          simp only [Action.singleOrDefault, Program.andThen_ok, Program.wp_bind]
          refine Action.calm_utcNow (K := Finality) inferInstance ?_
          intro read reading
          have resolved := (present.resolve tokenMember sessionMember).later reading
          refine judge_final resolved Tracked.tracked_instanceOf Tracked.tracked_instanceOf ?_
          intro free
          have sameId : (Tracked.instanceOf Session.id sessionRow
              (tracker.resolve tokenRow sessionRow).sessions).id = sessionRow.id :=
            Tracked.key_instanceOf
          rw [sameId, owns] at free
          have stored : StoredElsewhere bars hash seen := ⟨tokenRow, tokenMember, tokenHash, free⟩
          exact stored.later reading

theorem rotateAsync_final {token : String} (barred : Barred bars {} state) :
    (rotateAsync services http token).wp .final call
      (RotatesElsewhere bars (services.tokenGenerator.hash token)) state := by
  refine Action.wp_executionStrategy ?_ ?_ barred
  · intro tracked current known
    exact attempt_final known
  · intro _ _ _
    trivial

end Rules

theorem revokeForSessionAsync_final (sessionId : Guid) :
    Keeps .final Finality (revokeForSessionAsync sessionId) :=
  .bind .utcNow fun _ => .bind (.final_expire _ _) fun _ => .pure _

end RefreshTokenService

/-! ### The other operations -/

namespace SessionService

theorem touchAsync_final (sessionId : Guid) : Keeps .final Finality (touchAsync sessionId) :=
  .bind .utcNow fun _ => .bind (.final_sessions (fun _ => rfl) fun _ => id) fun _ => .pure _

theorem markReauthenticatedAsync_final (sessionId : Guid) :
    Keeps .final Finality (markReauthenticatedAsync sessionId) :=
  .bind .utcNow fun _ => .bind (.final_sessions (fun _ => rfl) fun _ => id) fun _ => .pure _

theorem revokeAsync_final (sessionId : Guid) (reason : SessionRevocationReason) :
    Keeps .final Finality (revokeAsync sessionId reason) :=
  .bind .utcNow fun _ => .bind (.final_revoke _ _ _) fun _ => .pure _

theorem revokeAllForUserAsync_final (userId : Guid) (exceptSessionId : Option Guid)
    (reason : SessionRevocationReason) :
    Keeps .final Finality (revokeAllForUserAsync userId exceptSessionId reason) :=
  .bind .utcNow fun _ => .final_revoke _ _ _

end SessionService

namespace SessionQueryService

theorem revokeAsync_final (http : HttpContext) (userId sessionId : Guid) :
    Keeps .final Finality (revokeAsync http userId sessionId) := by
  refine .bind (.query _) fun found => .guard ?_
  exact .bind (SessionService.revokeAsync_final sessionId _) fun _ =>
    .bind (RefreshTokenService.revokeForSessionAsync_final sessionId) fun _ => .logAsync http _ _

theorem revokeAllOthersAsync_final (http : HttpContext) (userId currentSessionId : Guid) :
    Keeps .final Finality (revokeAllOthersAsync http userId currentSessionId) := by
  refine .bind (.query _) fun sessionIds => ?_
  refine .bind (SessionService.revokeAllForUserAsync_final userId _ _) fun count => ?_
  refine .ite ?_ (.pure _)
  apply Keeps.bind .utcNow
  intro now
  apply Keeps.bind (.final_expire _ _)
  intro _
  exact .bind (.logAsync http _ _) fun _ => .pure _

end SessionQueryService

namespace LogoutService

theorem logoutAsync_final (http : HttpContext) (userId sessionId : Guid) :
    Keeps .final Finality (logoutAsync http userId sessionId) :=
  .bind (SessionService.revokeAsync_final sessionId _) fun _ =>
    .bind (RefreshTokenService.revokeForSessionAsync_final sessionId) fun _ => .logAsync http _ _

end LogoutService

/-- The operations that rotate tokens, write sessions or end them, without adding or deleting
one. -/
def SessionOperation.rotatesOrEnds : SessionOperation → Bool
  | rotate .. | revokeTokens _ | touch _ | markReauthenticated _ | revoke .. | revokeAllForUser .. |
    revokeOne .. | revokeAllOthers .. | logout .. => true
  | signIn .. | issue _ | changePassword .. | confirmPasswordReset .. | cleanup => false

theorem SessionOperation.keeps_final (services : Services) {op : SessionOperation} {call : ℕ}
    {start : State} (kind : op.rotatesOrEnds = true)
    (given : ∀ row ∈ start.store.db.refreshTokens, row.id < start.store.supply) :
    (op.program services).wp .final call (fun _ _ => True) start := by
  have ended : ∀ {program : Action SessionResponse}, Keeps .final Finality program →
      program.wp .final call (fun _ _ => True) start :=
    fun keeps => Program.wp_mono (keeps call start) fun _ _ _ => trivial
  match op, kind with
  | rotate http token, _ =>
      have barred : Barred (fun _ => False) {} start := .starting (fun _ _ => False.elim) given
      refine Program.wp_bind_of (RefreshTokenService.rotateAsync_final barred) ?_ ?_
      · intro _ _ _
        trivial
      · intro _ _ _
        trivial
  | revokeTokens sessionId, _ =>
      exact ended (.bind (RefreshTokenService.revokeForSessionAsync_final sessionId)
        fun _ => .pure _)
  | touch sessionId, _ =>
      exact ended (.bind (SessionService.touchAsync_final sessionId) fun _ => .pure _)
  | markReauthenticated sessionId, _ =>
      exact ended (.bind (SessionService.markReauthenticatedAsync_final sessionId) fun _ => .pure _)
  | revoke sessionId reason, _ =>
      exact ended (.bind (SessionService.revokeAsync_final sessionId reason) fun _ => .pure _)
  | revokeAllForUser userId exceptSessionId reason, _ =>
      exact ended (.bind (SessionService.revokeAllForUserAsync_final userId exceptSessionId reason)
        fun _ => .pure _)
  | revokeOne http userId sessionId, _ =>
      exact ended (.bind (SessionQueryService.revokeAsync_final http userId sessionId)
        fun _ => .pure _)
  | revokeAllOthers http userId currentSessionId, _ =>
      exact ended
        (.bind (SessionQueryService.revokeAllOthersAsync_final http userId currentSessionId)
        fun _ => .pure _)
  | logout http userId sessionId, _ =>
      exact ended (.bind (LogoutService.logoutAsync_final http userId sessionId) fun _ => .pure _)

/-! ### Concurrent operations -/

abbrev SessionPool := Pool Input World Event AppException SessionResponse

/-- Operations that have not begun. -/
def operating (services : Services) (operations : List SessionOperation) (start : State) :
    SessionPool where
  shared := start
  calls := operations.map (·.program services)

/-- A rotation that begins after the revocation of a session does not rotate a token of it, also
not a token that is stored only later, whatever else is in flight and whatever faults strike. -/
theorem revocation_is_final {services : Services} {operations : List SessionOperation}
    (kinds : ∀ op ∈ operations, op.rotatesOrEnds = true) {start : State}
    (sessionIds : Table.Keyed Session.id start.store.db.sessions)
    (tokenHashes : Table.Keyed RefreshToken.tokenHash start.store.db.refreshTokens)
    (given : ∀ row ∈ start.store.db.refreshTokens, row.id < start.store.supply)
    {before after : List (ℕ × Input)} {late : ℕ} {http : HttpContext} {token : String}
    (lateCall : operations[late]? = some (.rotate http token))
    (notBegun : ∀ step ∈ before, step.1 ≠ late) {session : Session}
    (revoked : session ∈
      ((operating services operations start).run before).shared.store.db.sessions ∧
      session.revokedAt ≠ none)
    {row : RefreshToken}
    (presented : row ∈ ((operating services operations start).run
      (before ++ after)).shared.store.db.refreshTokens ∧
      row.tokenHash = services.tokenGenerator.hash token ∧ row.sessionId = session.id)
    {result : RefreshResult}
    (ended : ((operating services operations start).run (before ++ after)).outcome? late =
      some (.ok (.refreshed result))) : result.outcome ≠ .rotated := by
  have verified : (operating services operations start).Verified (fun _ _ _ _ => True) Finality
      fun _ _ _ => True := by
    refine Pool.verified_of_wp Finality.refl ?_
    intro call program found
    simp only [operating, List.getElem?_map, Option.map_eq_some_iff] at found
    obtain ⟨op, requested, rfl⟩ := found
    exact op.keeps_final services (kinds op (List.mem_of_getElem? requested)) given
  obtain ⟨early, running⟩ :=
    Pool.run_wp Finality.refl Finality.trans verified (Pool.admitted_any before)
  have waiting : ((operating services operations start).run before).calls[late]? =
      some ((SessionOperation.rotate http token).program services) := by
    rw [Pool.run_calls_of_absent notBegun]
    simp [operating, lateCall]
  rw [Pool.run_append] at presented ended
  generalize (operating services operations start).run before = begun at *
  have ids : Table.Keyed Session.id begun.shared.store.db.sessions := by
    unfold Table.Keyed
    rw [early.saves.sessionIds]
    exact sessionIds
  have barred : Barred (· = session.id) {} begun.shared := by
    refine .starting ?_ ?_
    · intro other member same
      rw [ids.eq_of_key member revoked.1 same]
      exact revoked.2
    · intro stored member
      rcases early.saves.given stored member with below | ⟨old, oldMember, same⟩
      · exact below
      · rw [← same]
        exact Nat.lt_of_lt_of_le (given old oldMember) early.supply
  let goal (outcome : Except AppException SessionResponse) (state : State) : Prop :=
    ∀ answer, outcome = .ok (.refreshed answer) → answer.outcome = .rotated →
      StoredElsewhere (· = session.id) (services.tokenGenerator.hash token) state
  have correct : ((SessionOperation.rotate http token).program services).wp .final late goal
      begun.shared := by
    refine Program.wp_bind_of (RefreshTokenService.rotateAsync_final barred) ?_ ?_
    · rintro result state elsewhere answer equal rotated
      cases equal
      exact elsewhere rotated
    · intro exception state _ answer equal
      cases equal
  have started := running.update Finality.refl waiting correct
  obtain ⟨whole, finished⟩ :=
    Pool.run_wp Finality.refl Finality.trans started (Pool.admitted_any after)
  obtain ⟨state, rest, -, answered⟩ := finished.outcome ended
  rw [Function.update_self] at answered
  intro rotated
  obtain ⟨stored, storedMember, sameHash, free⟩ := (answered result rfl rotated).later rest
  have hashes := whole.saves.hashes (early.saves.hashes tokenHashes)
  refine free ?_
  rw [hashes.eq_of_key storedMember presented.1 (sameHash.trans presented.2.1.symm)]
  exact presented.2.2

/-- A rotation, a logout, and a rotation of the successor that the first one stores. -/
def overtakenByLogout : SessionPool :=
  operating .sample [.rotate {} "first", .logout {} 1 2, .rotate {} "tttt"]
    (Shared.initial RefreshTokenService.sampleWorld ⟨10, false⟩)

/-- The first rotation reads everything, and then the logout runs. -/
def upToLogout : List (ℕ × Input) :=
  List.replicate 9 (0, ⟨10, false⟩) ++ List.replicate 7 (1, ⟨11, false⟩)

/-- The first rotation commits, and then its successor is presented. -/
def afterLogout : List (ℕ × Input) :=
  List.replicate 6 (0, ⟨12, false⟩) ++ List.replicate 2 (2, ⟨13, false⟩)

set_option maxRecDepth 40000 in
theorem revocation_is_final_sample :
    (overtakenByLogout.run (upToLogout ++ afterLogout)).outcome? 2 =
        some (.ok (.refreshed (.failure .sessionRevoked (some 2)))) ∧
      (RefreshResult.failure .sessionRevoked (some 2)).outcome ≠ .rotated := by
  have ended : (overtakenByLogout.run (upToLogout ++ afterLogout)).outcome? 2 =
      some (.ok (.refreshed (.failure .sessionRevoked (some 2)))) := by decide
  let session : Session :=
    { id := 2
      userId := 1
      authenticatedAt := 0
      authenticationMethods := [.password]
      securityStamp := 7
      lastActiveAt := 0
      absoluteExpiresAt := 10080
      revokedAt := some 11
      revocationReason := some .logout }
  let successor : RefreshToken :=
    { id := 5
      sessionId := 2
      tokenHash := "sha256:tttt"
      expiresAt := 10080
      createdAt := 12
      updatedAt := 12 }
  have revoked : session ∈ (overtakenByLogout.run upToLogout).shared.store.db.sessions ∧
      session.revokedAt ≠ none := by decide
  have stored : successor ∈
      (overtakenByLogout.run (upToLogout ++ afterLogout)).shared.store.db.refreshTokens ∧
      successor.tokenHash = Services.sample.tokenGenerator.hash "tttt" ∧
      successor.sessionId = session.id := by decide
  exact ⟨ended, revocation_is_final (by decide) (by decide) (by decide) (by decide) rfl (by decide)
    revoked stored ended⟩

end AuthStartpack
