import AuthStartpack.Program.Sequential
import AuthStartpack.Refresh.Retry

/-!
Owns the effect of transient failures on whole calls of `RotateAsync`: exactly
which failures leave the result and the database as a run without failures
leaves them. A failure at an unspent token never does, since the call then ends
as a detected replay or gives up.
-/

namespace AuthStartpack

/-- The row without the time of its last write. -/
def Session.unstamped (row : Session) : Session := { row with updatedAt := 0 }

/-- The row without the time of its last write. -/
def RefreshToken.unstamped (row : RefreshToken) : RefreshToken := { row with updatedAt := 0 }

/-- The database without the times of the last writes to sessions and refresh tokens. -/
def Db.unstamped (db : Db) : Db :=
  { db with
    sessions := db.sessions.map Session.unstamped
    refreshTokens := db.refreshTokens.map RefreshToken.unstamped }

namespace RefreshTokenService

/-- Failures strike saves and commits only. -/
def FaultsAtWrites (_ : State) (_ : ℕ) (input : Input) (events : List Event) : Prop :=
  input.transient = true → ∃ event ∈ events, event.isFault = true

instance (state : State) (call : ℕ) (input : Input) (events : List Event) :
    Decidable (FaultsAtWrites state call input events) :=
  inferInstanceAs (Decidable (input.transient = true → ∃ event ∈ events, event.isFault = true))

theorem faultless_of_faults {program : Action RefreshResult} {call : ℕ} {before after : State}
    {outcome : Except AppException RefreshResult}
    (run : program.Completes FaultsAtWrites call before outcome after)
    (none : faults after.events = []) : program.Completes Faultless call before outcome after := by
  refine run.of_journal ?_
  intro shared input events admitted reported
  unfold Faultless
  by_contra transient
  obtain ⟨event, member, faulty⟩ := admitted (by simpa using transient)
  have inJournal : event ∈ after.events :=
    List.mem_map_of_mem (f := Entry.event) (reported event member)
  exact List.filter_eq_nil_iff.mp none event inJournal faulty

/-- The outcomes that a run without failures never has for an unspent token. -/
def Disturbed : Except AppException RefreshResult → Prop
  | .ok result => result.outcome = .reuseDetected
  | .error exception => exception = .retryLimitExceeded

/-- The hash does not present a spent token. -/
def PresentsUnspent (hash : String) (db : Db) : Prop :=
  ∀ stored session, presented hash db = [(stored, session)] → stored.usedAt = none

section Runs

variable {services : Services} {http : HttpContext} {token : String} {call : ℕ}
variable {admits : State → ℕ → Input → List Event → Prop}
variable {world : World} {last : Input} {after : State}
variable {outcome : Except AppException RefreshResult}

/-- Without failures, an unspent token is no replay, and nothing is given up. -/
theorem undisturbed_of_unspent
    (unspent : PresentsUnspent (services.tokenGenerator.hash token) world.db)
    (run : (rotateAsync services http token).Completes Faultless call
      (Shared.initial world last) outcome after) : ¬ Disturbed outcome := by
  have correct : RotationCorrect services (services.tokenGenerator.hash token)
      (.alone Faultless fun _ _ => True) call Undisturbed (Shared.initial world last)
      fun outcome _ => ¬ Disturbed outcome := by
    constructor
    case refused =>
      intro seen later result see refusal _ disturbed
      cases refusal with
      | notFound missing => cases disturbed
      | unspent outcome found unused different => exact different.2 disturbed
    case threw =>
      intro seen later exception see thrown _ _ _ disturbed
      exact thrown.ne_retryLimitExceeded disturbed
    case replayed =>
      intro seen read current input stored session savedAt db see found used
      rw [presented_quiet see.store] at found
      exact absurd (unspent stored session found) used
    case replayFailed =>
      intro seen read current later stored session savedAt exception see found used
      rw [presented_quiet see.store] at found
      exact absurd (unspent stored session found) used
    case rotated =>
      intros
      exact ⟨trivial, fun _ _ _ _ disturbed => nomatch disturbed⟩
  exact run.post_of_wp
    (wp_rotateAsync (Calm.alone Faultless call) (fun _ _ _ admitted => admitted) correct)

/-- The outcome of replays that have been reached by a failure. -/
theorem ReplayEnds.disturbed {reading : List Event → Instant → Prop} {start : State}
    {session : Session} {tokens : List (Tracked RefreshToken)} {original : Session} {retries : ℕ}
    {failed : List Event}
    (ends : ReplayEnds http reading start session tokens original retries failed outcome after)
    (saves : ∀ now savedAt exception,
      retriedChanges session tokens original failed now savedAt start.store.db ≠ .error exception) :
    Disturbed outcome := by
  cases ends with
  | gaveUp => exact rfl
  | revoked => exact rfl
  | refused _ now savedAt exception changes => exact absurd changes (saves now savedAt exception)

/-- How the first run of the delegate on an unspent token can end. -/
inductive FirstRun (hash : String) : Except AppException (Attempt ChangeTracker RefreshResult) →
    State → Prop
  | completed (result : RefreshResult) (later : State) (quiet : faults later.events = []) :
      FirstRun hash (.ok (.completed result)) later
  | threw (exception : AppException) (later : State) (quiet : faults later.events = []) :
      FirstRun hash (.error exception) later
  | failed (later : State) (stored successor : RefreshToken) (session original : Session)
      (now : Instant) (tokens : List (Tracked RefreshToken))
      (found : presented hash later.store.db = [(stored, session)])
      (tracked : tokens = rotatingTokens stored successor now ∨
        tokens = (rotatingTokens stored successor now).map Tracked.accepted)
      (originalId : original.id = session.id) (owner : successor.sessionId = session.id)
      (freshId : ∀ row ∈ later.store.db.refreshTokens, row.id ≠ successor.id)
      (freshHash : ∀ row ∈ later.store.db.refreshTokens, row.tokenHash ≠ successor.tokenHash) :
      FirstRun hash (.ok (.failed (tracking tokens original (slide session now)))) later

theorem attempt_unspent
    (unspent : PresentsUnspent (services.tokenGenerator.hash token) world.db)
    (fresh : FreshDraws services world) :
    (attempt services http (services.tokenGenerator.hash token) {}).wp
      (.alone admits fun _ _ => True) call (FirstRun (services.tokenGenerator.hash token))
      (Shared.initial world last) := by
  have calm := Calm.alone admits call
  have unwritten : (Shared.initial world last).journal = [] := rfl
  have quietly : ∀ {later : State}, Undisturbed (Shared.initial world last) later →
      faults later.events = [] := by
    intro later rests
    simp [Shared.events, rests.journal, unwritten, faults]
  simp only [attempt, Program.wp_bind]
  refine Action.calm_queryOrThrow calm ?_
  intro seen see
  rw [presented_quiet see.store]
  cases found : presented (services.tokenGenerator.hash token)
    (Shared.initial world last).store.db with
  | nil => exact .completed _ _ (quietly see)
  | cons head tail =>
  obtain ⟨stored, session⟩ := head
  cases tail with
  | cons other others => exact .threw _ _ (quietly see)
  | nil =>
  have unused := unspent stored session found
  simp only [Action.singleOrDefault, Program.andThen_ok, Program.wp_bind]
  refine Action.calm_utcNow calm ?_
  intro read reading
  have reached := see.trans reading
  simp only [Program.andThen_ok, ChangeTracker.resolved_token, ChangeTracker.resolved_session,
    judge, unused, Option.isSome_none, Bool.false_eq_true, if_false]
  split
  · exact .completed _ _ (quietly reached)
  split
  · exact .completed _ _ (quietly reached)
  split
  · exact .completed _ _ (quietly reached)
  split
  · exact .completed _ _ (quietly reached)
  simp only [Program.wp_bind]
  refine Action.calm_queryOrThrow calm ?_
  intro stamped stamp
  have arrived := reached.trans stamp
  cases Action.single ((stamped.store.db.users.filter (·.id = session.userId)).map
      (·.securityStamp)) with
  | error exception => exact .threw _ _ (quietly arrived)
  | ok currentStamp =>
  simp only [Program.andThen_ok]
  split
  · exact .completed _ _ (quietly arrived)
  refine wp_rotate calm ?_ fun later exception rests _ => .threw _ _ (quietly (arrived.trans rests))
  intro drawn ready successor draw readied
  have present := (arrived.trans draw.reached).trans readied
  obtain ⟨later, since, number⟩ := draw.numbered
  obtain ⟨earlier, before, hashed⟩ := draw.hashed
  have failing : ∀ {current failed : State} {tokens : List (Tracked RefreshToken)}
      {original : Session}, Undisturbed ready current → failed.store = current.store →
      (tokens = rotatingTokens stored successor read.last.now ∨
        tokens = (rotatingTokens stored successor read.last.now).map Tracked.accepted) →
      original.id = session.id →
      FirstRun (services.tokenGenerator.hash token)
        (.ok (.failed (tracking tokens original (slide session read.last.now)))) failed := by
    intro current failed tokens original rests store tracked originalId
    have whole := present.trans rests
    obtain ⟨auditLogEntries, equal⟩ := whole.store.db
    refine .failed failed stored successor session original read.last.now tokens ?_ tracked
      originalId draw.owner ?_ ?_
    · rw [store, presented_quiet whole.store]
      exact found
    · rw [store, equal]
      intro row member same
      exact fresh.ids row member _ (arrived.trans since).store.supply (same.trans number)
    · rw [store, equal]
      intro row member same
      exact fresh.hashes row member _ (arrived.trans before).store.supply (same.trans hashed)
  rw [rotating_eq]
  constructor
  case saveFailed =>
    intro current input rests _ _
    exact ⟨trivial, failing rests rfl (.inl rfl) rfl⟩
  case commitFailed =>
    intro current input rests _ _
    exact ⟨trivial, failing rests rfl (.inr rfl) rfl⟩
  case committed =>
    rintro current input savedAt db rests _ _
    refine ⟨trivial, ?_⟩
    rintro result later - logged
    refine .completed _ _ ?_
    simp [Shared.events, logged.journal, rests.journal, present.journal, unwritten, faults,
      Event.isFault]
  case refused =>
    intro current later savedAt exception rests _ logged
    exact .threw _ _ (quietly ((present.trans rests).trans logged))

/-- After a failure at a rotation, the runs that follow take the token for a replay. -/
theorem replays_disturb {hash : String} {retries : ℕ} {failed : State} {tracker : ChangeTracker}
    (first : FirstRun hash (.ok (.failed tracker)) failed) :
    (Action.executionStrategy (attempt services http hash) retries tracker).wp
      (.alone admits fun _ _ => True) call (fun outcome _ => Disturbed outcome) failed := by
  cases first with
  | failed _ stored successor session original now tokens found tracked originalId owner freshId
      freshHash =>
  obtain ⟨member, -, sessionMember, -⟩ := presented_eq_single found
  have known : tokens.any (·.current.id = stored.id) = true := by
    rcases tracked with rfl | rfl
    · exact rotatingTokens_known
    · rw [List.any_map]
      exact rotatingTokens_known
  have used : (Tracked.instanceOf RefreshToken.id stored tokens).usedAt ≠ none := by
    rcases tracked with rfl | rfl
    · exact rotatingTokens_used
    · rw [instanceOf_accepted]
      exact rotatingTokens_used
  have sameId : (slide session now).id = session.id := rfl
  have overwrites : ∀ later, revokeForReuse (slide session now) later =
      revokeForReuse (slide session now) later := fun _ => rfl
  have slidId : original.id = (slide session now).id := originalId
  have slidOwner : successor.sessionId = (slide session now).id := owner
  refine Program.wp_mono (alone_replays (fun _ _ => True) True (fun _ _ _ _ => trivial)
    (fun _ _ _ _ _ => trivial) sameId retries found (resolve_tracking known sameId) known used
    overwrites) ?_
  rintro outcome final ⟨rest, -, -, ends⟩
  refine ends.disturbed ?_
  intro later savedAt exception
  exact retriedChanges_rotating tracked slidId member ⟨session, sessionMember, rfl⟩ slidOwner
    freshId freshHash

/-- One failure, and an unspent token is taken for a replay or the call gives up. -/
theorem disturbed_of_fault
    (unspent : PresentsUnspent (services.tokenGenerator.hash token) world.db)
    (fresh : FreshDraws services world)
    (run : (rotateAsync services http token).Completes admits call (Shared.initial world last)
      outcome after) :
    faults after.events = [] ∨ Disturbed outcome := by
  suffices correct : (rotateAsync services http token).wp (.alone admits fun _ _ => True) call
      (fun outcome later => faults later.events = [] ∨ Disturbed outcome)
      (Shared.initial world last) from run.post_of_wp correct
  rw [rotateAsync, maxRetryCount, Action.executionStrategy, Program.wp_bind]
  refine Program.wp_mono (attempt_unspent unspent fresh) ?_
  intro outcome later first
  cases outcome with
  | error exception =>
      cases first with
      | threw _ _ quiet => exact .inl quiet
  | ok ran =>
      cases ran with
      | completed result =>
          cases first with
          | completed _ _ quiet => exact .inl quiet
      | failed tracker =>
          exact Program.wp_mono (replays_disturb first) fun _ _ disturbed => .inr disturbed

end Runs

/-! ### A spent token -/

section SpentRuns

variable {services : Services} {http : HttpContext} {token : String} {call : ℕ}
variable {admits : State → ℕ → Input → List Event → Prop}
variable {world : World} {last : Input} {after : State}
variable {outcome : Except AppException RefreshResult}
variable {stored : RefreshToken} {session : Session}

/-- The end of every run on a spent token. -/
theorem replayEnds_of_spent (reading : List Event → Instant → Prop) (mayFail : Prop)
    (reads : ∀ state input events, admits state call input events →
      reading state.events input.now)
    (fails : ∀ state input events, admits state call input events → input.transient = true →
      mayFail)
    (found : presented (services.tokenGenerator.hash token) world.db = [(stored, session)])
    (used : stored.usedAt ≠ none)
    (run : (rotateAsync services http token).Completes admits call (Shared.initial world last)
      outcome after) :
    ∃ failed, (∀ event ∈ failed, event.isFault = true) ∧ (failed ≠ [] → mayFail) ∧
      ReplayEnds http reading (Shared.initial world last) session
        [⟨.unchanged, stored, stored⟩] session maxRetryCount failed outcome after := by
  have resolved : ChangeTracker.resolve {} stored session =
      tracking [⟨.unchanged, stored, stored⟩] session session := by
    simp [ChangeTracker.resolve, tracking, Tracked.resolve]
  have overwrites : ∀ now, revokeForReuse session now = revokeForReuse session now := fun _ => rfl
  refine run.post_of_wp (alone_replays reading mayFail reads fails rfl maxRetryCount found resolved
    (by simp) ?_ overwrites)
  simpa [Tracked.instanceOf] using used

/-- The session after a replay that `failed` runs preceded. -/
def replayedSession (session : Session) (failed : List Event) (now : Instant) : Session :=
  match lastFailedCommit failed with
  | none => revokeForReuse session now
  | some attemptedAt =>
      if now = attemptedAt then session else { session with revokedAt := some now }

/-- The database with the session of a replay in this form. -/
def withSession (current : Session) (db : Db) : Db :=
  { db with sessions := db.sessions.map fun row => if row.id = current.id then current else row }

theorem only_session {hash : String} {db : Db} (found : presented hash db = [(stored, session)])
    {row : Session} (member : row ∈ db.sessions) (same : row.id = session.id) : row = session := by
  obtain ⟨tokenMember, tokenHash, -, owner⟩ := presented_eq_single found
  have also : (stored, row) ∈ presented hash db := by
    simp only [presented, List.mem_flatMap, List.mem_filter, List.mem_map, Prod.mk.injEq,
      decide_eq_true_eq]
    exact ⟨stored, ⟨tokenMember, tokenHash⟩, row, ⟨member, same.trans owner⟩, rfl, rfl⟩
  rw [found, List.mem_singleton, Prod.mk.injEq] at also
  exact also.2

theorem merge_revokeForReuse (now savedAt : Instant) :
    session.merge (revokeForReuse session now) savedAt session =
      { revokeForReuse session now with updatedAt := savedAt } := by
  simp [Session.merge, revokeForReuse]

/-- The UPDATE of a replay after another writes only the column that differs between the two. -/
theorem merge_revokeForReuse_again {now attemptedAt savedAt : Instant}
    (different : now ≠ attemptedAt) :
    (revokeForReuse session attemptedAt).merge (revokeForReuse session now) savedAt session =
      { session with revokedAt := some now, updatedAt := savedAt } := by
  simp [Session.merge, revokeForReuse, changed, different]

/-- The UPDATE of a replay on the row that the call read. -/
theorem merge_believed (failed : List Event) (now savedAt : Instant) :
    (if revokeForReuse session now ≠ believed session failed then
      (believed session failed).merge (revokeForReuse session now) savedAt session
        else session).unstamped = (replayedSession session failed now).unstamped := by
  unfold believed replayedSession
  cases lastFailedCommit failed with
  | none =>
      by_cases already : revokeForReuse session now = session
      · rw [if_neg (not_not.mpr already), already]
      · rw [if_pos already, merge_revokeForReuse]
        rfl
  | some attemptedAt =>
      dsimp only
      by_cases same : now = attemptedAt
      · rw [if_neg (not_not.mpr (by rw [same])), if_pos same]
      · have differs : revokeForReuse session now ≠ revokeForReuse session attemptedAt := by
          simpa [revokeForReuse] using same
        rw [if_pos differs, if_neg same, merge_revokeForReuse_again same]
        rfl

theorem believed_id (failed : List Event) : (believed session failed).id = session.id := by
  unfold believed
  split <;> rfl

theorem replayedSession_id (failed : List Event) (now : Instant) :
    (replayedSession session failed now).id = session.id := by
  unfold replayedSession
  split
  · rfl
  split <;> rfl

/-- What a replay saves. -/
theorem retriedChanges_saved {hash : String} {db after : Db}
    (found : presented hash db = [(stored, session)]) {failed : List Event} {now savedAt : Instant}
    (saved : retriedChanges session [⟨.unchanged, stored, stored⟩] session failed now savedAt db =
      .ok after) :
    ∃ sessions, after = { db with sessions } ∧
      sessions.map Session.unstamped =
        (withSession (replayedSession session failed now) db).sessions.map Session.unstamped := by
  rw [retriedChanges_spent, Db.updateSession_eq_ok] at saved
  refine ⟨_, saved.2, ?_⟩
  simp only [Table.updateWhere, withSession, List.map_map, believed_id, replayedSession_id]
  refine List.map_congr_left ?_
  intro row member
  by_cases same : row.id = session.id
  · obtain rfl := only_session found member same
    simpa using merge_believed failed now savedAt
  · simp [same]

theorem retriedChanges_saves {hash : String} {db : Db}
    (found : presented hash db = [(stored, session)]) {failed : List Event} {now savedAt : Instant}
    {exception : AppException} :
    retriedChanges session [⟨.unchanged, stored, stored⟩] session failed now savedAt db ≠
      .error exception := by
  obtain ⟨-, -, member, -⟩ := presented_eq_single found
  have present : ∃ row ∈ db.sessions, row.id = (believed session failed).id :=
    ⟨session, member, (believed_id failed).symm⟩
  have saves : ∃ sessions, db.updateSession savedAt (believed session failed)
      (revokeForReuse session now) = .ok { db with sessions } ∧
        sessions.map Session.id = db.sessions.map Session.id :=
    Db.updateSession_succeeds present
  obtain ⟨sessions, saved, -⟩ := saves
  rw [retriedChanges_spent, saved]
  exact nofun

/-- A saved replay is one that some run without failures could have saved. -/
theorem replayedSession_unstamped_iff (failed : List Event) (now : Instant) :
    (∃ revokedAt, (replayedSession session failed now).unstamped =
        (revokeForReuse session revokedAt).unstamped) ↔
      ∀ attemptedAt, lastFailedCommit failed = some attemptedAt →
        session.revocationReason = some .tokenReuseDetected ∧
          (session.revokedAt = none → attemptedAt ≠ now) := by
  unfold replayedSession
  cases lastFailedCommit failed with
  | none => exact ⟨fun _ _ impossible => (nomatch impossible), fun _ => ⟨now, rfl⟩⟩
  | some attemptedAt =>
      simp only [Option.some.injEq, forall_eq']
      constructor
      · rintro ⟨revokedAt, equal⟩
        have reason := congrArg Session.revocationReason equal
        have revoked := congrArg Session.revokedAt equal
        by_cases same : now = attemptedAt
        · simp only [same, if_true, Session.unstamped, revokeForReuse] at reason revoked
          exact ⟨reason, fun unrevoked => by simp [unrevoked] at revoked⟩
        · simp only [same, if_false, Session.unstamped, revokeForReuse] at reason
          exact ⟨reason, fun _ => Ne.symm same⟩
      · rintro ⟨reason, differs⟩
        by_cases same : now = attemptedAt
        · obtain ⟨revokedAt, revoked⟩ := Option.ne_none_iff_exists'.mp
            fun unrevoked => differs unrevoked same.symm
          exact ⟨revokedAt, by simp [same, Session.unstamped, revokeForReuse, reason, revoked]⟩
        · exact ⟨now, by simp [same, Session.unstamped, revokeForReuse, reason]⟩

end SpentRuns

/-! ### Transparency -/

/-- The outcome and the database are those of a run without failures, for some clock readings and
some fresh values. -/
def Transparent (services : Services) (http : HttpContext) (token : String) (world : World)
    (last : Input) (outcome : Except AppException RefreshResult) (final : Db) : Prop :=
  ∃ supply call after, FreshDraws services { world with supply } ∧
    (rotateAsync services http token).Completes Faultless call
      (Shared.initial { world with supply } last) outcome after ∧
    final.unstamped = after.store.db.unstamped

/-- The failures of a run that leave its outcome and its database as they are: none; or failures at
a token that was spent before, too few to give up, such that the replay after the last failed commit
has nothing left to write that this commit would have written. -/
def Harmless (found : List (RefreshToken × Session)) (events : List Event) : Prop :=
  faults events = [] ∨
    ∃ stored session, found = [(stored, session)] ∧ stored.usedAt ≠ none ∧
      (faults events).length ≤ maxRetryCount ∧
      ∀ attemptedAt, lastFailedCommit (faults events) = some attemptedAt →
        session.revocationReason = some .tokenReuseDetected ∧
          (session.revokedAt = none → .reuseCommitted attemptedAt ∉ events)

theorem record_withSessions (entry : AuditLogEntry) (db : Db) (sessions : List Session) :
    AuditLogger.record entry { db with sessions } =
      { AuditLogger.record entry db with sessions } := by
  simp only [AuditLogger.record, Db.insertAuditLogEntry]
  cases insertRow [("PK_AuditLogEntries", !db.auditLogEntries.any (·.id = entry.id))]
      db.auditLogEntries entry <;> rfl

theorem record_sessions (entry : AuditLogEntry) (db : Db) :
    (AuditLogger.record entry db).sessions = db.sessions := by
  simp only [AuditLogger.record, Db.insertAuditLogEntry]
  cases insertRow [("PK_AuditLogEntries", !db.auditLogEntries.any (·.id = entry.id))]
      db.auditLogEntries entry <;> rfl

section Transparency

variable {services : Services} {http : HttpContext} {token : String} {call : ℕ}
variable {world : World} {last : Input} {after : State}
variable {outcome : Except AppException RefreshResult}
variable {stored : RefreshToken} {session : Session}

theorem transparent_of_faultless (fresh : FreshDraws services world)
    (run : (rotateAsync services http token).Completes FaultsAtWrites call
      (Shared.initial world last) outcome after) (none : faults after.events = []) :
    Transparent services http token world last outcome after.store.db :=
  ⟨world.supply, call, after, fresh, faultless_of_faults run none, rfl⟩

/-- What a run without failures does with a spent token. -/
theorem faultless_spent {admits : State → ℕ → Input → List Event → Prop}
    (reading : List Event → Instant → Prop)
    (reads : ∀ state input events, admits state call input events →
      reading state.events input.now)
    (faultless : ∀ state input events, admits state call input events → input.transient = false)
    (found : presented (services.tokenGenerator.hash token) world.db = [(stored, session)])
    (used : stored.usedAt ≠ none)
    (run : (rotateAsync services http token).Completes admits call (Shared.initial world last)
      outcome after) :
    outcome = .ok (.failure .reuseDetected (some session.id)) ∧
      ∃ now loggedAt sessions, reading [] now ∧ reading [.reuseCommitted now] loggedAt ∧
        sessions.map Session.unstamped =
          (withSession (revokeForReuse session now) world.db).sessions.map Session.unstamped ∧
        after.store.db = AuditLogger.record (AuditLogger.entry http .tokenReuseDetected
          (some session.userId) world.supply loggedAt) { world.db with sessions } := by
  obtain ⟨failed, -, unfailing, ends⟩ := replayEnds_of_spent reading False reads
    (fun state input events admitted transient =>
      Bool.false_ne_true ((faultless state input events admitted).symm.trans transient))
    found used run
  obtain rfl : failed = [] := not_not.mp unfailing
  cases ends with
  | gaveUp _ count => cases count
  | refused _ now savedAt exception changes => exact absurd changes (retriedChanges_saves found)
  | revoked _ now savedAt loggedAt db count readNow readLog changes reported written =>
      obtain ⟨sessions, rfl, saved⟩ := retriedChanges_saved found changes
      exact ⟨rfl, now, loggedAt, sessions, readNow, readLog, saved, written⟩

/-- A spent token: the replay that ends the run is one without failures. -/
theorem transparent_spent_iff (fresh : FreshDraws services world)
    (found : presented (services.tokenGenerator.hash token) world.db = [(stored, session)])
    (used : stored.usedAt ≠ none)
    (run : (rotateAsync services http token).Completes FaultsAtWrites call
      (Shared.initial world last) outcome after) :
    Transparent services http token world last outcome after.store.db ↔
      (faults after.events).length ≤ maxRetryCount ∧
        ∀ attemptedAt, lastFailedCommit (faults after.events) = some attemptedAt →
          session.revocationReason = some .tokenReuseDetected ∧
            (session.revokedAt = none → .reuseCommitted attemptedAt ∉ after.events) := by
  obtain ⟨failed, faulty, -, ends⟩ := replayEnds_of_spent (fun _ _ => True) True
    (fun _ _ _ _ => trivial) (fun _ _ _ _ _ => trivial) found used run
  obtain ⟨tokenMember, -, sessionMember, -⟩ := presented_eq_single found
  have pattern : faults failed = failed := List.filter_eq_self.mpr faulty
  cases ends with
  | refused _ now savedAt exception changes => exact absurd changes (retriedChanges_saves found)
  | gaveUp _ count reported db =>
      have counted : (faults after.events).length = maxRetryCount + 1 := by
        rw [reported, ← count]
        exact congrArg List.length pattern
      constructor
      · rintro ⟨supply, other, final, -, faultless, -⟩
        obtain ⟨ended, -⟩ := faultless_spent (fun _ _ => True) (fun _ _ _ _ => trivial)
          (fun _ _ _ admitted => admitted)
            (show presented _ { world with supply }.db = _ from found)
          used faultless
        cases ended
      · rintro ⟨few, -⟩
        omega
  | revoked _ now savedAt loggedAt db count readNow readLog changes reported written =>
      obtain ⟨sessions, rfl, saved⟩ := retriedChanges_saved found changes
      have spread : after.events = failed ++ [.reuseCommitted now] := reported
      have struck : faults after.events = failed := by
        rw [spread, faults, List.filter_append]
        simpa [Event.isFault, faults] using pattern
      have revokedAgain : ∀ attemptedAt, .reuseCommitted attemptedAt ∉ after.events ↔
          attemptedAt ≠ now := by
        intro attemptedAt
        rw [spread, List.mem_append, List.mem_singleton, not_or]
        constructor
        · rintro ⟨-, different⟩ same
          exact different (congrArg Event.reuseCommitted same)
        · intro different
          refine ⟨fun member => ?_, fun equal => different (Event.reuseCommitted.inj equal)⟩
          exact absurd (faulty _ member) (by simp [Event.isFault])
      rw [struck]
      simp only [revokedAgain]
      rw [← replayedSession_unstamped_iff, and_iff_right count]
      constructor
      · rintro ⟨supply, other, final, -, faultless, same⟩
        obtain ⟨-, revokedAt, _, otherSessions, -, -, otherSaved, otherWritten⟩ :=
          faultless_spent (fun _ _ => True) (fun _ _ _ _ => trivial)
            (fun _ _ _ admitted => admitted)
            (show presented _ { world with supply }.db = _ from found) used faultless
        refine ⟨revokedAt, ?_⟩
        have rows := congrArg Db.sessions same
        simp only [Db.unstamped, written, otherWritten, record_sessions] at rows
        have column := (saved.symm.trans rows).trans otherSaved
        simp only [withSession, List.map_map] at column
        have row := List.map_inj_left.mp column session sessionMember
        simpa [replayedSession_id, revokeForReuse] using row
      · rintro ⟨revokedAt, equal⟩
        -- The run without failures reads the clock at this revocation, and then at this entry.
        let reading : List Event → Instant → Prop := fun events instant =>
          instant = if events = [] then revokedAt else loggedAt
        let admits : State → ℕ → Input → List Event → Prop := fun state _ input _ =>
          input.transient = false ∧ reading state.events input.now
        have live : ∀ state (events : Input → List Event),
            ∃ input, admits state 0 input (events input) :=
          fun state _ => ⟨⟨_, false⟩, rfl, rfl⟩
        obtain ⟨otherOutcome, final, other⟩ := Program.exists_completes live
          (rotateAsync services http token) (Shared.initial world last)
        obtain ⟨rfl, _, _, otherSessions, rfl, rfl, otherSaved, otherWritten⟩ :=
          faultless_spent reading (fun _ _ _ admitted => admitted.2)
            (fun _ _ _ admitted => admitted.1) found used other
        refine ⟨world.supply, 0, final, fresh,
          other.of_journal fun _ _ _ admitted _ => admitted.1, ?_⟩
        have rows : sessions.map Session.unstamped = otherSessions.map Session.unstamped := by
          rw [saved, otherSaved]
          simp only [withSession, List.map_map]
          refine List.map_congr_left ?_
          intro row _
          by_cases same : row.id = session.id
          · simpa [replayedSession_id, revokeForReuse, same] using equal
          · simp [replayedSession_id, revokeForReuse, same]
        rw [written, otherWritten]
        simp only [record_withSessions, Db.unstamped, rows]
        rfl

/-- `RotateAsync` is transparent to the failures that are harmless, and to no others. -/
theorem rotateAsync_transparent_iff (fresh : FreshDraws services world)
    (run : (rotateAsync services http token).Completes FaultsAtWrites call
      (Shared.initial world last) outcome after) :
    Transparent services http token world last outcome after.store.db ↔
      Harmless (presented (services.tokenGenerator.hash token) world.db) after.events := by
  by_cases unspent : PresentsUnspent (services.tokenGenerator.hash token) world.db
  · constructor
    · rintro ⟨supply, other, final, -, faultless, -⟩
      have calm :=
        undisturbed_of_unspent (show PresentsUnspent _ { world with supply }.db from unspent)
        faultless
      exact .inl ((disturbed_of_fault unspent fresh run).resolve_right calm)
    · rintro (none | ⟨stored, session, found, used, -⟩)
      · exact transparent_of_faultless fresh run none
      · exact absurd (unspent stored session found) used
  · simp only [PresentsUnspent, not_forall] at unspent
    obtain ⟨stored, session, found, used⟩ := unspent
    rw [transparent_spent_iff fresh found used run]
    constructor
    · rintro ⟨few, resends⟩
      exact .inr ⟨stored, session, found, used, few, resends⟩
    · rintro (none | ⟨_, _, single, -, few, resends⟩)
      · rw [none]
        exact ⟨Nat.zero_le _, fun _ impossible => nomatch impossible⟩
      · rw [found] at single
        cases single
        exact ⟨few, resends⟩

end Transparency

theorem freshDraws_sample : FreshDraws .sample sampleWorld := by
  constructor
  · intro row member number later same
    obtain rfl := List.mem_singleton.mp member
    rw [← same] at later
    exact absurd later (by decide)
  · intro row member number later same
    obtain rfl := List.mem_singleton.mp member
    have letters := congrArg (fun text => text.toList.drop 7) same
    simp only [Services.sample, String.toList_append, String.toList_ofList] at letters
    have first : 'f' ∈ List.replicate number 't' := by
      have leading : 'f' ∈ "sha256:first".toList.drop 7 := by decide
      rw [letters] at leading
      simp at leading
    have different := List.eq_of_mem_replicate first
    cases different

/-- The sample token is rotated, and the first commit fails. -/
def firstCommitFails : Option (Except AppException RefreshResult × State) :=
  Program.execute FaultsAtWrites 0 (fun position => ⟨10, position = 9⟩)
    (rotateAsync .sample {} "first") (Shared.initial sampleWorld ⟨10, false⟩)

/-- The result is a detected replay, and the session is revoked. -/
def endsRevoked (ended : Except AppException RefreshResult × State) : Bool :=
  ended.1.toOption.any (·.outcome = .reuseDetected) &&
    ended.2.store.db.sessions.any (·.revokedAt = some 10)

set_option maxRecDepth 10000 in
theorem firstCommitFails_any : firstCommitFails.any endsRevoked = true := by decide

theorem rotateAsync_transparent_iff_sample :
    ∃ outcome after, firstCommitFails = some (outcome, after) ∧
      (Transparent .sample {} "first" sampleWorld ⟨10, false⟩ outcome after.store.db ↔
        Harmless (presented "sha256:first" sampleWorld.db) after.events) := by
  obtain ⟨⟨outcome, after⟩, ended, -⟩ := (Option.any_eq_true _ _).mp firstCommitFails_any
  exact ⟨outcome, after, ended,
    rotateAsync_transparent_iff freshDraws_sample (Program.completes_of_execute ended)⟩

/-- A commit that fails once, and the session of a token that was never spent is revoked. -/
theorem unspent_revoked_when_commit_fails :
    PresentsUnspent "sha256:first" sampleWorld.db ∧
      ∃ outcome after,
        (rotateAsync .sample {} "first").Completes FaultsAtWrites 0
          (Shared.initial sampleWorld ⟨10, false⟩) outcome after ∧
        endsRevoked (outcome, after) = true ∧
        ¬ Transparent .sample {} "first" sampleWorld ⟨10, false⟩ outcome after.store.db := by
  have unspent : PresentsUnspent "sha256:first" sampleWorld.db := by
    intro stored session found
    have single : presented "sha256:first" sampleWorld.db =
        [(⟨3, 2, "sha256:first", 10080, none, none, 0, 0⟩, session)] := by
      cases found
      rfl
    rw [found] at single
    cases single
    rfl
  obtain ⟨⟨outcome, after⟩, ended, revoked⟩ := (Option.any_eq_true _ _).mp firstCommitFails_any
  refine ⟨unspent, outcome, after, Program.completes_of_execute ended, revoked, ?_⟩
  rintro ⟨supply, call, final, -, faultless, -⟩
  have calm :=
    undisturbed_of_unspent (show PresentsUnspent _ { sampleWorld with supply }.db from unspent)
    faultless
  simp only [endsRevoked, Bool.and_eq_true] at revoked
  cases outcome with
  | error exception => cases revoked.1
  | ok result =>
      have replayed : result.outcome = .reuseDetected := by
        simpa [Except.toOption] using revoked.1
      exact calm replayed

end RefreshTokenService

end AuthStartpack
