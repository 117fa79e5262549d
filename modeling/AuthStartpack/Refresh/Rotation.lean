import AuthStartpack.Services.Tokens.RefreshTokenService

/-!
Owns the specification of `RotateAsync` without faults, for any law. A rotation
reads quietly and then does at most one of two things: it revokes the session of
a replayed token, or it spends the token and inserts its successor. Whoever
knows what these two commits keep knows what `RotateAsync` keeps.
-/

namespace AuthStartpack

namespace RefreshTokenService

/-- The row of a presented token after a rotation at `now`. -/
def spend (stored : RefreshToken) (now : Instant) (successor : Guid) : RefreshToken :=
  { stored with usedAt := some now, replacedByTokenId := some successor }

/-- The row of the session after a rotation at `now`. -/
def slide (session : Session) (now : Instant) : Session := { session with lastActiveAt := now }

/-- The row of the session after a replay at `now`. -/
def revokeForReuse (session : Session) (now : Instant) : Session :=
  { session with revokedAt := some now, revocationReason := some .tokenReuseDetected }

/-- What the commit of a replay changes. -/
def replayChanges (session : Session) (now savedAt : Instant) (db : Db) : Except AppException Db :=
  db.updateSession savedAt session (revokeForReuse session now)

/-- What the commit of a rotation changes. -/
def rotationChanges (stored : RefreshToken) (session : Session) (successor : RefreshToken)
    (now savedAt : Instant) (db : Db) : Except AppException Db := do
  let db ← db.updateSession savedAt session (slide session now)
  let db ← db.updateRefreshToken savedAt stored (spend stored now successor.id)
  db.insertRefreshToken savedAt successor

section Changes

variable {stored successor : RefreshToken} {session : Session} {now savedAt : Instant}
variable {db after : Db}

/-- The sessions after a commit that wrote `current` over a session read as `original`. -/
def writtenSessions (original current : Session) (savedAt : Instant) (sessions : List Session) :
    List Session :=
  Table.updateWhere (fun row => row.id = original.id && current ≠ original)
    (original.merge current savedAt) sessions

/-- The refresh tokens after the commit of a rotation. -/
def rotatedTokens (stored successor : RefreshToken) (now savedAt : Instant)
    (tokens : List RefreshToken) : List RefreshToken :=
  Table.updateWhere (fun row => row.id = stored.id)
      (stored.merge (spend stored now successor.id) savedAt) tokens ++
    [{ successor with createdAt := savedAt, updatedAt := savedAt }]

theorem replayChanges_ok (saved : replayChanges session now savedAt db = .ok after) :
    after = { db with
      sessions := writtenSessions session (revokeForReuse session now) savedAt db.sessions } := by
  simp only [replayChanges, Db.updateSession_eq_ok] at saved
  exact saved.2

/-- A rotation commits only if it finds the row it marks, and only with fresh keys. -/
structure RotationCommits (stored successor : RefreshToken) (session : Session)
    (now savedAt : Instant) (db after : Db) : Prop where
  found : ∃ row ∈ db.refreshTokens, row.id = stored.id
  freshId : ∀ row ∈ db.refreshTokens, row.id ≠ successor.id
  freshHash : ∀ row ∈ db.refreshTokens, row.tokenHash ≠ successor.tokenHash
  owned : ∃ row ∈ db.sessions, row.id = successor.sessionId
  after_eq : after = { db with
    sessions := writtenSessions session (slide session now) savedAt db.sessions
    refreshTokens := rotatedTokens stored successor now savedAt db.refreshTokens }

theorem spend_ne (unused : stored.usedAt = none) : spend stored now successor.id ≠ stored := by
  intro same
  have used := congrArg RefreshToken.usedAt same
  simp [spend, unused] at used

theorem rotationChanges_ok (unused : stored.usedAt = none)
    (saved : rotationChanges stored session successor now savedAt db = .ok after) :
    RotationCommits stored successor session now savedAt db after := by
  simp only [rotationChanges, bind_eq_ok, Db.updateSession_eq_ok, Db.updateRefreshToken_eq_ok,
    Db.insertRefreshToken_eq_ok] at saved
  obtain ⟨_, ⟨-, rfl⟩, _, ⟨present, rfl⟩, ⟨freshId, freshHash, owned⟩, rfl⟩ := saved
  simp only [spend_ne unused, false_or, ne_eq, not_false_eq_true, decide_true, Bool.and_true]
    at present freshId freshHash ⊢
  have keepsId : ∀ row, (stored.merge (spend stored now successor.id) savedAt row).id = row.id :=
    fun _ => rfl
  have keepsHash : ∀ row,
      (stored.merge (spend stored now successor.id) savedAt row).tokenHash = row.tokenHash :=
    fun row => changed_self _ _
  have keepsSession : ∀ row, (session.merge (slide session now) savedAt row).id = row.id :=
    fun _ => rfl
  refine ⟨present, ?_, ?_, ?_, rfl⟩
  · intro row member same
    have updated := List.mem_map_of_mem (f := RefreshToken.id) member
    rw [← Table.map_updateWhere keepsId] at updated
    obtain ⟨other, otherMember, otherId⟩ := List.mem_map.mp updated
    exact freshId other otherMember (otherId.trans same)
  · intro row member same
    have updated := List.mem_map_of_mem (f := RefreshToken.tokenHash) member
    rw [← Table.map_updateWhere keepsHash] at updated
    obtain ⟨other, otherMember, otherHash⟩ := List.mem_map.mp updated
    exact freshHash other otherMember (otherHash.trans same)
  · obtain ⟨row, member, same⟩ := owned
    have original := List.mem_map_of_mem (f := Session.id) member
    rw [Table.map_updateWhere keepsSession] at original
    obtain ⟨other, otherMember, otherId⟩ := List.mem_map.mp original
    exact ⟨other, otherMember, otherId.trans same⟩

theorem rotationChanges_error {exception : AppException}
    (refused : rotationChanges stored session successor now savedAt db = .error exception) :
    StatementError exception := by
  simp only [rotationChanges, bind_eq_error] at refused
  rcases refused with failed | ⟨_, -, failed | ⟨_, -, failed⟩⟩
  · exact Db.updateSession_error failed
  · exact Db.updateRefreshToken_error failed
  · exact Db.insertRefreshToken_error failed

/-- The row of a spent token after the commit. -/
def spentRow (stored : RefreshToken) (now savedAt : Instant) (successor : Guid)
    (row : RefreshToken) : RefreshToken :=
  stored.merge (spend stored now successor) savedAt row

theorem spentRow_usedAt (unused : stored.usedAt = none) (row : RefreshToken) {id : Guid} :
    (spentRow stored now savedAt id row).usedAt = some now := by
  simp [spentRow, RefreshToken.merge, spend, changed, unused]

@[simp]
theorem spentRow_id (row : RefreshToken) {id : Guid} :
    (spentRow stored now savedAt id row).id = row.id := rfl

@[simp]
theorem spentRow_sessionId (row : RefreshToken) {id : Guid} :
    (spentRow stored now savedAt id row).sessionId = row.sessionId := rfl

@[simp]
theorem spentRow_tokenHash (row : RefreshToken) {id : Guid} :
    (spentRow stored now savedAt id row).tokenHash = row.tokenHash := changed_self _ _

@[simp]
theorem spentRow_expiresAt (row : RefreshToken) {id : Guid} :
    (spentRow stored now savedAt id row).expiresAt = row.expiresAt := changed_self _ _

theorem mem_rotatedTokens_cases {tokens : List RefreshToken} {token : RefreshToken}
    (member : token ∈ rotatedTokens stored successor now savedAt tokens) :
    (token ∈ tokens ∧ token.id ≠ stored.id) ∨
      (∃ row ∈ tokens, row.id = stored.id ∧
        token = spentRow stored now savedAt successor.id row) ∨
      token = { successor with createdAt := savedAt, updatedAt := savedAt } := by
  rcases List.mem_append.mp member with updated | inserted
  · rcases Table.mem_updateWhere_cases updated with ⟨old, miss⟩ | ⟨row, rowMember, hit, equal⟩
    · exact .inl ⟨old, by simpa using miss⟩
    · exact .inr (.inl ⟨row, rowMember, by simpa using hit, equal.symm⟩)
  · exact .inr (.inr (List.mem_singleton.mp inserted))

theorem mem_rotatedTokens_of_other {tokens : List RefreshToken} {token : RefreshToken}
    (member : token ∈ tokens) (other : token.id ≠ stored.id) :
    token ∈ rotatedTokens stored successor now savedAt tokens :=
  List.mem_append_left _ (Table.mem_updateWhere_of_not member (by simpa using other))

theorem mem_rotatedTokens_of_spent {tokens : List RefreshToken} {row : RefreshToken}
    (member : row ∈ tokens) (same : row.id = stored.id) :
    spentRow stored now savedAt successor.id row ∈
      rotatedTokens stored successor now savedAt tokens :=
  List.mem_append_left _ (Table.mem_updateWhere_of_hit member (by simpa using same))

/-- A key that the spent row keeps and the successor has fresh stays a key. -/
theorem keyed_rotatedTokens {κ : Type} {key : RefreshToken → κ} {tokens : List RefreshToken}
    (keyed : Table.Keyed key tokens)
    (keeps : ∀ row, key (spentRow stored now savedAt successor.id row) = key row)
    (fresh : ∀ row ∈ tokens,
      key row ≠ key { successor with createdAt := savedAt, updatedAt := savedAt }) :
    Table.Keyed key (rotatedTokens stored successor now savedAt tokens) := by
  refine Table.Keyed.append (keyed.updateWhere keeps) ?_
  intro row member same
  have column := List.mem_map_of_mem (f := key) member
  rw [Table.map_updateWhere keeps] at column
  obtain ⟨other, otherMember, equal⟩ := List.mem_map.mp column
  exact fresh other otherMember (equal.trans same)

end Changes

theorem presented_eq_single {hash : String} {db : Db} {stored : RefreshToken} {session : Session}
    (found : presented hash db = [(stored, session)]) :
    stored ∈ db.refreshTokens ∧ stored.tokenHash = hash ∧ session ∈ db.sessions ∧
      session.id = stored.sessionId := by
  have member : (stored, session) ∈ presented hash db := by simp [found]
  simp only [presented, List.mem_flatMap, List.mem_filter, List.mem_map, Prod.mk.injEq,
    decide_eq_true_eq] at member
  obtain ⟨token, ⟨tokenMember, tokenHash⟩, row, ⟨rowMember, owner⟩, rfl, rfl⟩ := member
  exact ⟨tokenMember, tokenHash, rowMember, owner⟩

/-- A stored token with its session is what its hash presents. -/
theorem presented_of_keyed {db : Db} {stored : RefreshToken} {session : Session}
    (tokenHashes : Table.Keyed RefreshToken.tokenHash db.refreshTokens)
    (sessionIds : Table.Keyed Session.id db.sessions) (member : stored ∈ db.refreshTokens)
    (sessionMember : session ∈ db.sessions) (owns : session.id = stored.sessionId) :
    presented stored.tokenHash db = [(stored, session)] := by
  unfold presented
  rw [tokenHashes.filter_key member, List.flatMap_singleton, ← owns,
    sessionIds.filter_key sessionMember, List.map_singleton]

theorem presented_quiet {hash : String} {before after : World} (quiet : QuietStep before after) :
    presented hash after.db = presented hash before.db := by
  obtain ⟨auditLogEntries, equal⟩ := quiet.db
  rw [equal]
  rfl

/-- Nothing fails transiently. -/
def Faultless (_ : State) (_ : ℕ) (input : Input) (_ : List Event) : Prop :=
  input.transient = false

instance (state : State) (call : ℕ) (input : Input) (events : List Event) :
    Decidable (Faultless state call input events) :=
  inferInstanceAs (Decidable (input.transient = false))

/-- The checks on a token and its session that `RotateAsync` passes without another read. -/
structure Accepted (services : Services) (stored : RefreshToken) (session : Session)
    (now : Instant) : Prop where
  unused : stored.usedAt = none
  live : session.revokedAt = none
  unexpired : now < stored.expiresAt
  young : now < session.absoluteExpiresAt
  active : now < session.lastActiveAt + services.sessionOptions.inactivityWindow

/-- The user of the session carries the stamp that the session was created with. -/
def StampCurrent (session : Session) (db : Db) : Prop :=
  Action.single ((db.users.filter (·.id = session.userId)).map (·.securityStamp)) =
    .ok session.securityStamp

/-- A token that `CreateToken` made between two states, which nothing but quiet steps separates. -/
structure Drawn (services : Services) (K : State → State → Prop) (start drawn : State)
    (session : Session) (successor : RefreshToken) : Prop where
  reached : K start drawn
  supply : drawn.store.supply = successor.id + 1
  numbered : ∃ earlier, K start earlier ∧ successor.id = earlier.store.supply
  hashed : ∃ earlier, K start earlier ∧ successor.tokenHash =
    services.tokenGenerator.hash (services.tokenGenerator.newOpaqueToken earlier.store.supply)
  owner : successor.sessionId = session.id
  expiry : successor.expiresAt = session.absoluteExpiresAt
  unused : successor.usedAt = none
  unlinked : successor.replacedByTokenId = none

/-- The results that change nothing, on a database that presents these tokens. -/
inductive Refusal (hash : String) (db : Db) : RefreshResult → Prop
  | notFound (missing : presented hash db = []) : Refusal hash db (.failure .notFound)
  | unspent {stored : RefreshToken} {session : Session} (outcome : RefreshOutcome)
      (found : presented hash db = [(stored, session)]) (unused : stored.usedAt = none)
      (refused : outcome ≠ .rotated ∧ outcome ≠ .reuseDetected) :
      Refusal hash db (.failure outcome (some session.id))

/-- What is to be shown of `RotateAsync` run by `call` from `state` for a presented hash. -/
structure RotationCorrect (services : Services) (hash : String) (law : Law Input World Event)
    (call : ℕ) (K : State → State → Prop) (state : State)
    (post : Except AppException RefreshResult → State → Prop) : Prop where
  refused : ∀ seen later result, K state seen → Refusal hash seen.store.db result →
    K seen later → post (.ok result) later
  threw : ∀ seen later exception, K state seen → Action.Thrown exception →
    (∀ stored session, presented hash seen.store.db = [(stored, session)] →
      stored.usedAt = none) →
    presented hash seen.store.db ≠ [] →
    K seen later → post (.error exception) later
  replayed : ∀ seen read current input stored session savedAt db, K state seen →
    presented hash seen.store.db = [(stored, session)] → stored.usedAt ≠ none →
    K seen read → K read current →
    law.admits current call input [.reuseCommitted read.last.now] →
    replayChanges session read.last.now savedAt current.store.db = .ok db →
    let committed := current.advance call input
      ({ current.store with db }, [.reuseCommitted read.last.now])
    law.guarantee call current committed ∧
      ∀ later, K committed later → post (.ok (.failure .reuseDetected (some session.id))) later
  replayFailed : ∀ seen read current later stored session savedAt exception, K state seen →
    presented hash seen.store.db = [(stored, session)] → stored.usedAt ≠ none →
    K seen read → K read current →
    replayChanges session read.last.now savedAt current.store.db = .error exception →
    K current later → post (.error exception) later
  rotated : ∀ seen read stamped drawn current input stored session successor savedAt db,
    K state seen → presented hash seen.store.db = [(stored, session)] →
    K seen read → Accepted services stored session read.last.now →
    K read stamped → StampCurrent session stamped.store.db →
    Drawn services K stamped drawn session successor → K drawn current →
    law.admits current call input [.refreshTokenSpent stored] →
    rotationChanges stored session successor read.last.now savedAt current.store.db = .ok db →
    let committed := current.advance call input
      ({ current.store with db }, [.refreshTokenSpent stored])
    law.guarantee call current committed ∧
      ∀ later access refresh, K committed later →
        post (.ok (.success session.id access refresh)) later

section Rules

variable {services : Services} {http : HttpContext} {law : Law Input World Event} {call : ℕ}
variable {K : State → State → Prop} {state : State}

theorem wp_createToken (calm : Calm law call K) {session : Session}
    {post : Except AppException (IssuedRefreshToken × RefreshToken) → State → Prop}
    (rest : ∀ issued drawn entity, Drawn services K state drawn session entity →
      post (.ok (issued, entity)) drawn) :
    (createToken services session.id session.absoluteExpiresAt).wp law call post state := by
  simp only [createToken, Program.wp_bind]
  refine Action.calm_draw calm ?_
  intro before first beforeFirst firstDrew _
  simp only [Program.andThen_ok, Program.wp_bind]
  refine Action.calm_draw calm ?_
  intro between second beforeSecond secondDrew supply
  have reached := calm.trans _ _ _ (calm.trans _ _ _ beforeFirst firstDrew) beforeSecond
  exact rest _ second _
    { reached := calm.trans _ _ _ reached secondDrew
      supply
      numbered := ⟨between, reached, rfl⟩
      hashed := ⟨before, beforeFirst, rfl⟩
      owner := rfl
      expiry := rfl
      unused := rfl
      unlinked := rfl }

/-- What is to be shown of the end of a run of the delegate that starts in `state`. Once committed,
it reports one of `results`. -/
structure Transaction (law : Law Input World Event) (call : ℕ) (K : State → State → Prop)
    (state : State) (tracker : ChangeTracker) (now : Instant) (event : Event)
    (results : RefreshResult → Prop)
    (post : Except AppException (Attempt ChangeTracker RefreshResult) → State → Prop) : Prop where
  saveFailed : ∀ current input, K state current → input.transient = true →
    law.admits current call input [.saveFailed] →
    let failed := current.advance call input (current.store, [.saveFailed])
    law.guarantee call current failed ∧ post (.ok (.failed tracker)) failed
  commitFailed : ∀ current input, K state current → input.transient = true →
    law.admits current call input [.commitFailed now] →
    let failed := current.advance call input (current.store, [.commitFailed now])
    law.guarantee call current failed ∧ post (.ok (.failed tracker.acceptAllChanges)) failed
  committed : ∀ current input savedAt db, K state current →
    law.admits current call input [event] →
    tracker.changes savedAt current.store.db = .ok db →
    let committed := current.advance call input ({ current.store with db }, [event])
    law.guarantee call current committed ∧
      ∀ result later, results result → K committed later → post (.ok (.completed result)) later
  refused : ∀ current later savedAt exception, K state current →
    tracker.changes savedAt current.store.db = .error exception → K current later →
    post (.error exception) later

theorem wp_saveAndCommit (calm : Calm law call K) {tracker : ChangeTracker} {now : Instant}
    {event : Event} {report : Action RefreshResult} {results : RefreshResult → Prop}
    {post : Except AppException (Attempt ChangeTracker RefreshResult) → State → Prop}
    (correct : Transaction law call K state tracker now event results post)
    (reports : ∀ start, report.wp law call
      (fun outcome later => K start later ∧ ∃ result, outcome = .ok result ∧ results result)
        start) :
    (saveAndCommit tracker now event report).wp law call post state := by
  simp only [saveAndCommit, Program.wp_bind]
  intro staged relied input admitted
  have reached := calm.rely _ _ relied
  by_cases faulted : input.transient = true
  case pos =>
    simp only [faulted, if_true] at admitted ⊢
    exact correct.saveFailed staged input reached faulted admitted
  simp only [faulted, if_false, Bool.false_eq_true] at admitted ⊢
  obtain ⟨kept, stays⟩ := calm.quiet staged input staged.store admitted (.refl _)
  refine ⟨kept, ?_⟩
  have arrived := calm.trans _ _ _ reached stays
  simp only [Program.wp_done, Program.andThen_ok, Program.wp_bind]
  intro current relied second admitted
  have present := calm.trans _ _ _ arrived (calm.rely _ _ relied)
  by_cases faulted : second.transient = true
  case pos =>
    simp only [faulted, if_true] at admitted ⊢
    exact correct.commitFailed current second present faulted admitted
  simp only [faulted, if_false, Bool.false_eq_true] at admitted ⊢
  split at admitted
  case h_1 db outcome =>
    obtain ⟨guaranteed, ends⟩ := correct.committed current second input.now db present admitted
      outcome
    refine ⟨guaranteed, ?_⟩
    simp only [Program.wp_done, Program.andThen_ok, if_true, Program.wp_bind]
    refine Program.wp_mono (reports _) ?_
    rintro outcome later ⟨rests, result, rfl, reported⟩
    exact ends result later reported rests
  case h_2 exception outcome =>
    obtain ⟨guaranteed, rests⟩ := calm.quiet current second current.store admitted (.refl _)
    exact ⟨guaranteed, correct.refused current _ input.now exception present outcome rests⟩

theorem wp_revokeReplayed (calm : Calm law call K) {tracker : ChangeTracker} {session : Session}
    {now : Instant}
    {post : Except AppException (Attempt ChangeTracker RefreshResult) → State → Prop}
    (correct : Transaction law call K state (tracker.assignSession (revokeForReuse session now)) now
      (.reuseCommitted now) (· = .failure .reuseDetected (some session.id)) post) :
    (revokeReplayed http tracker session now).wp law call post state := by
  refine wp_saveAndCommit calm correct ?_
  intro start
  simp only [Program.wp_bind]
  refine AuditLogger.wp_logAsync calm ?_
  intro later logged
  exact ⟨logged, _, rfl, rfl⟩

/-- What the context tracks once a rotation has assigned its properties. -/
def rotating (tracker : ChangeTracker) (stored successor : RefreshToken) (session : Session)
    (now : Instant) : ChangeTracker :=
  ((tracker.assignToken (spend stored now successor.id)).addToken successor).assignSession
    (slide session now)

/-- The claims that a rotated access token takes from its session. -/
structure Carries (session : Session) (token : AccessToken) : Prop where
  sub : token.sub = session.userId
  sid : token.sid = session.id
  authTime : token.authTime = toUnixTimeSeconds session.authenticatedAt

/-- What a rotation of a token of this session answers. -/
def Succeeds (session : Session) (result : RefreshResult) : Prop :=
  ∃ access refresh, Carries session access.value ∧ result = .success session.id access refresh

theorem wp_rotate (calm : Calm law call K) {tracker : ChangeTracker} {stored : RefreshToken}
    {session : Session} {now : Instant}
    {post : Except AppException (Attempt ChangeTracker RefreshResult) → State → Prop}
    (correct : ∀ drawn ready successor, Drawn services K state drawn session successor →
      K drawn ready →
      Transaction law call K ready (rotating tracker stored successor session now) now
        (.refreshTokenSpent stored) (Succeeds session) post)
    (threw : ∀ later exception, K state later → Action.InvalidOperation exception →
      post (.error exception) later) :
    (rotate services http tracker stored session now).wp law call post state := by
  simp only [rotate, Program.wp_bind]
  refine wp_createToken calm ?_
  intro issued drawn successor draw
  simp only [Program.andThen_ok, Program.wp_bind]
  refine Action.calm_query calm ?_
  intro listed list
  simp only [Program.andThen_ok, Program.wp_bind]
  refine Action.calm_queryOrThrow calm ?_
  intro loaded load
  have unchanged := calm.trans _ _ _ list load
  cases single : Action.single (loaded.store.db.users.filter (·.id = session.userId)) with
  | error exception =>
      exact threw _ _ (calm.trans _ _ _ draw.reached unchanged) (Action.single_error single)
  | ok user =>
      simp only [Program.andThen_ok, Program.wp_bind]
      refine AccessTokenIssuer.wp_issueAsync calm ?_
      intro access signed grants sign
      have ready := calm.trans _ _ _ unchanged sign
      refine wp_saveAndCommit calm (correct drawn signed successor draw ready) ?_
      intro start
      simp only [Program.wp_bind]
      refine AuditLogger.wp_logAsync calm ?_
      intro later logged
      exact ⟨logged, _, rfl, access, issued, ⟨grants.sub, grants.sid, grants.authTime⟩, rfl⟩

/-- The postcondition of one run of the delegate that must not fail transiently. -/
def completing (post : Except AppException RefreshResult → State → Prop) :
    Except AppException (Attempt ChangeTracker RefreshResult) → State → Prop
  | .ok (.completed result), later => post (.ok result) later
  | .ok (.failed _), _ => False
  | .error exception, later => post (.error exception) later

theorem changes_replay {stored : RefreshToken} {session : Session} {now savedAt : Instant}
    {db : Db} :
    ((ChangeTracker.resolve {} stored session).assignSession
      (revokeForReuse session now)).changes savedAt db = replayChanges session now savedAt db := by
  simp only [ChangeTracker.resolve, ChangeTracker.assignSession, ChangeTracker.changes,
    ChangeTracker.saveSession, ChangeTracker.saveToken, Tracked.resolve, Tracked.assign,
      revokeForReuse, Db.updateRefreshToken, List.any_nil,
    Bool.false_eq_true, if_false, List.nil_append, List.map_cons, List.map_nil, if_true,
    List.foldlM_cons, List.foldlM_nil, bind_pure]
  exact bind_pure _

theorem changes_rotating {stored successor : RefreshToken} {session : Session}
    {now savedAt : Instant} {db : Db} :
    (rotating (ChangeTracker.resolve {} stored session) stored successor session now).changes
      savedAt
      db = rotationChanges stored session successor now savedAt db := by
  simp only [rotating, ChangeTracker.resolve, ChangeTracker.assignSession,
    ChangeTracker.assignToken, ChangeTracker.addToken, ChangeTracker.changes,
    ChangeTracker.saveSession, ChangeTracker.saveToken, Tracked.resolve, Tracked.assign, spend,
      slide, rotationChanges, List.any_nil, Bool.false_eq_true, if_false,
    List.nil_append, List.map_cons, List.map_nil, if_true, List.cons_append, List.foldlM_cons,
    List.foldlM_nil, bind_pure]

/-- The run of the delegate on a token that was used. -/
theorem wp_revokeReplayed_completing (calm : Calm law call K)
    (faultless : ∀ current input events, law.admits current call input events →
      input.transient = false)
    {hash : String} {seen read : State} {stored : RefreshToken} {session : Session}
    {post : Except AppException RefreshResult → State → Prop}
    (correct : RotationCorrect services hash law call K state post) (see : K state seen)
    (found : presented hash seen.store.db = [(stored, session)]) (used : stored.usedAt ≠ none)
    (reading : K seen read) :
    (revokeReplayed http (ChangeTracker.resolve {} stored session) session
      read.last.now).wp law call (completing post) read := by
  refine wp_revokeReplayed calm ?_
  constructor
  case saveFailed =>
    intro current input reached faulted admitted
    simp [faultless _ _ _ admitted] at faulted
  case commitFailed =>
    intro current input reached faulted admitted
    simp [faultless _ _ _ admitted] at faulted
  case committed =>
    intro current input savedAt db reached admitted saved
    rw [changes_replay] at saved
    obtain ⟨kept, ends⟩ := correct.replayed seen read current input stored session savedAt db see
      found used reading reached admitted saved
    refine ⟨kept, ?_⟩
    rintro _ later rfl rests
    exact ends later rests
  case refused =>
    intro current later savedAt exception reached failed rests
    rw [changes_replay] at failed
    exact correct.replayFailed seen read current later stored session savedAt exception see found
      used reading reached failed rests

/-- The exceptions of a run on a token that was not used. -/
theorem RotationCorrect.threw_unused (calm : Calm law call K) {hash : String} {seen read : State}
    {stored : RefreshToken} {session : Session}
    {post : Except AppException RefreshResult → State → Prop}
    (correct : RotationCorrect services hash law call K state post) (see : K state seen)
    (found : presented hash seen.store.db = [(stored, session)]) (unused : stored.usedAt = none)
    (reading : K seen read) {later : State} {exception : AppException} (rests : K read later)
    (thrown : Action.Thrown exception) : post (.error exception) later := by
  refine correct.threw seen later exception see thrown ?_ ?_ (calm.trans _ _ _ reading rests)
  · intro other _ single
    rw [found] at single
    cases single
    exact unused
  · simp [found]

/-- The run of the delegate on a token that passes the checks. -/
theorem wp_rotate_completing (calm : Calm law call K)
    (faultless : ∀ current input events, law.admits current call input events →
      input.transient = false)
    {hash : String} {seen read stamped : State} {stored : RefreshToken} {session : Session}
    {post : Except AppException RefreshResult → State → Prop}
    (correct : RotationCorrect services hash law call K state post) (see : K state seen)
    (found : presented hash seen.store.db = [(stored, session)]) (reading : K seen read)
    (accepted : Accepted services stored session read.last.now) (stamp : K read stamped)
    (same : StampCurrent session stamped.store.db) :
    (rotate services http (ChangeTracker.resolve {} stored session) stored session
      read.last.now).wp law call (completing post) stamped := by
  have threw : ∀ later exception, K read later → Action.Thrown exception →
      post (.error exception) later := fun _ _ rests thrown =>
    correct.threw_unused calm see found accepted.unused reading rests thrown
  refine wp_rotate calm ?_ fun later exception rests refused =>
    threw _ _ (calm.trans _ _ _ stamp rests) (.invalidOperation refused)
  intro drawn ready successor draw readied
  constructor
  case saveFailed =>
    intro current input reached faulted admitted
    simp [faultless _ _ _ admitted] at faulted
  case commitFailed =>
    intro current input reached faulted admitted
    simp [faultless _ _ _ admitted] at faulted
  case committed =>
    intro current input savedAt db reached admitted saved
    rw [changes_rotating] at saved
    obtain ⟨kept, ends⟩ := correct.rotated seen read stamped drawn current input stored session
      successor savedAt db see found reading accepted stamp same draw
      (calm.trans _ _ _ readied reached) admitted saved
    refine ⟨kept, ?_⟩
    rintro _ later ⟨access, refresh, -, rfl⟩ rests
    exact ends later access refresh rests
  case refused =>
    intro current later savedAt exception reached failed rests
    rw [changes_rotating] at failed
    exact threw _ _ (calm.trans _ _ _ (calm.trans _ _ _ stamp draw.reached)
      (calm.trans _ _ _ readied (calm.trans _ _ _ reached rests)))
      (.statement (rotationChanges_error failed))

theorem wp_judge (calm : Calm law call K)
    (faultless : ∀ current input events, law.admits current call input events →
      input.transient = false)
    {hash : String} {seen read : State} {stored : RefreshToken} {session : Session}
    {post : Except AppException RefreshResult → State → Prop}
    (correct : RotationCorrect services hash law call K state post) (see : K state seen)
    (found : presented hash seen.store.db = [(stored, session)]) (reading : K seen read) :
    (judge services http (ChangeTracker.resolve {} stored session) stored session
      read.last.now).wp law call (completing post) read := by
  unfold judge
  by_cases unused : stored.usedAt = none
  case neg =>
    simp only [Option.isSome_iff_ne_none, ne_eq, unused, not_false_eq_true, if_true]
    exact wp_revokeReplayed_completing calm faultless correct see found unused reading
  have refuse : ∀ outcome later, outcome ≠ .rotated ∧ outcome ≠ .reuseDetected → K read later →
      post (.ok (.failure outcome (some session.id))) later := by
    intro outcome later different rests
    exact correct.refused seen later _ see (.unspent outcome found unused different)
      (calm.trans _ _ _ reading rests)
  simp only [unused, Option.isSome_none, Bool.false_eq_true, if_false]
  split
  · exact refuse _ _ (by decide) (calm.refl _)
  split
  · exact refuse _ _ (by decide) (calm.refl _)
  split
  · exact refuse _ _ (by decide) (calm.refl _)
  split
  · exact refuse _ _ (by decide) (calm.refl _)
  rename_i revoked expired aged idle
  have accepted : Accepted services stored session read.last.now :=
    { unused
      live := by simpa using revoked
      unexpired := Int.not_le.mp expired
      young := Int.not_le.mp aged
      active := Int.not_le.mp idle }
  simp only [Program.wp_bind]
  refine Action.calm_queryOrThrow calm ?_
  intro stamped stamp
  cases current : Action.single ((stamped.store.db.users.filter (·.id = session.userId)).map
      (·.securityStamp)) with
  | error exception =>
      exact correct.threw_unused calm see found unused reading stamp
        (.invalidOperation (Action.single_error current))
  | ok currentStamp =>
      simp only [Program.andThen_ok]
      split
      · exact refuse _ _ (by decide) stamp
      rename_i matching
      have same : StampCurrent session stamped.store.db := by
        unfold StampCurrent
        rw [current, not_not.mp matching]
      exact wp_rotate_completing calm faultless correct see found reading accepted stamp same

/-- Without faults, `RotateAsync` is correct if its refusals and its two commits are. -/
theorem wp_rotateAsync (calm : Calm law call K)
    (faultless : ∀ current input events, law.admits current call input events →
      input.transient = false)
    {token : String} {post : Except AppException RefreshResult → State → Prop}
    (correct : RotationCorrect services (services.tokenGenerator.hash token) law call K state
      post) :
    (rotateAsync services http token).wp law call post state := by
  have delegate : (attempt services http (services.tokenGenerator.hash token) {}).wp law call
      (completing post) state := by
    simp only [attempt, Program.wp_bind]
    refine Action.calm_queryOrThrow calm ?_
    intro seen see
    cases found : presented (services.tokenGenerator.hash token) seen.store.db with
    | nil => exact correct.refused _ _ _ see (.notFound found) (calm.refl _)
    | cons head tail =>
        obtain ⟨stored, session⟩ := head
        cases tail with
        | cons other others =>
            refine correct.threw seen seen _ see (.invalidOperation ⟨_, rfl⟩) ?_ ?_ (calm.refl _)
            · intro _ _ single
              simp [found] at single
            · simp [found]
        | nil =>
            simp only [Action.singleOrDefault, Program.andThen_ok, Program.wp_bind]
            refine Action.calm_utcNow calm ?_
            intro read reading
            simp only [Program.andThen_ok, ChangeTracker.resolved_token,
              ChangeTracker.resolved_session]
            exact wp_judge calm faultless correct see found reading
  simp only [rotateAsync, maxRetryCount, Action.executionStrategy, Program.wp_bind]
  refine Program.wp_mono delegate ?_
  intro outcome later reached
  cases outcome with
  | error exception => exact reached
  | ok ran =>
      cases ran with
      | completed result => exact reached
      | failed kept => exact False.elim reached

end Rules

/-- One user with one session and its first token, for evaluating runs. -/
def sampleWorld : World where
  db :=
    { users := [{ id := 1, email := "ada@example.test", emailVerified := true, securityStamp := 7 }]
      sessions :=
        [{ id := 2
           userId := 1
           authenticatedAt := 0
           authenticationMethods := [.password]
           securityStamp := 7
           lastActiveAt := 0
           absoluteExpiresAt := 10080 }]
      refreshTokens :=
        [{ id := 3, sessionId := 2, tokenHash := "sha256:first", expiresAt := 10080 }] }
  supply := 4

end RefreshTokenService

end AuthStartpack
