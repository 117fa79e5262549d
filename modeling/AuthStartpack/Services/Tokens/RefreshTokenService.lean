import AuthStartpack.Data.ChangeTracker
import AuthStartpack.Services.Audit
import AuthStartpack.Services.Tokens.AccessTokenIssuer

/-!
Owns `RefreshTokenService`: issuing the first refresh token of a session,
rotating a presented one with reuse detection, and revoking the tokens of a
session.
-/

namespace AuthStartpack

inductive RefreshOutcome
  | rotated
  | notFound
  | reuseDetected
  | tokenExpired
  | sessionIdle
  | sessionExpired
  | sessionRevoked
  | securityStampChanged
deriving DecidableEq, Repr

structure IssuedRefreshToken where
  value : String
  tokenId : Guid
  expiresAt : Instant
deriving DecidableEq, Repr

structure RefreshResult where
  outcome : RefreshOutcome
  accessToken : Option IssuedAccessToken := none
  refreshToken : Option IssuedRefreshToken := none
  sessionId : Option Guid := none
deriving DecidableEq, Repr

namespace RefreshResult

def success (sessionId : Guid) (accessToken : IssuedAccessToken)
    (refreshToken : IssuedRefreshToken) : RefreshResult where
  outcome := .rotated
  sessionId := some sessionId
  accessToken := some accessToken
  refreshToken := some refreshToken

def failure (outcome : RefreshOutcome) (sessionId : Option Guid := none) : RefreshResult where
  outcome := outcome
  sessionId := sessionId

end RefreshResult

/-- The names of a user's roles. -/
def Db.roleNames (db : Db) (userId : Guid) : List String :=
  (db.userRoles.filter (·.userId = userId)).flatMap fun userRole =>
    (db.roles.filter (·.id = userRole.roleId)).map (·.name)

namespace RefreshTokenService

variable (services : Services) (http : HttpContext)

def createToken (sessionId : Guid) (sessionExpiry : Instant) :
    Action (IssuedRefreshToken × RefreshToken) := do
  let plaintext := services.tokenGenerator.newOpaqueToken (← Action.draw)
  let entity : RefreshToken :=
    { id := ← Action.draw
      sessionId
      tokenHash := services.tokenGenerator.hash plaintext
      expiresAt := sessionExpiry }
  return (⟨plaintext, entity.id, sessionExpiry⟩, entity)

def issueAsync (sessionId : Guid) : Action IssuedRefreshToken := do
  let session ← Action.queryOrThrow fun db =>
    Action.single (db.sessions.filter (·.id = sessionId))
  let (token, entity) ← createToken services sessionId session.absoluteExpiresAt
  Action.saveChanges fun now db => db.insertRefreshToken now entity
  return token

/-- The tokens with this hash, each with its session (`Include`). -/
def presented (hash : String) (db : Db) : List (RefreshToken × Session) :=
  (db.refreshTokens.filter (·.tokenHash = hash)).flatMap fun token =>
    (db.sessions.filter (·.id = token.sessionId)).map fun session => (token, session)

/-- The end of a run of the delegate: save, commit, and `report` once committed. -/
def saveAndCommit (tracker : ChangeTracker) (now : Instant) (event : Event)
    (report : Action RefreshResult) : Action (Attempt ChangeTracker RefreshResult) := do
  match ← Action.stageChanges with
  | none => return .failed tracker
  | some savedAt =>
      if ← Action.commit (tracker.changes savedAt) now [event] then
        return .completed (← report)
      else
        return .failed tracker.acceptAllChanges

/-- The branch of a replayed token. -/
def revokeReplayed (tracker : ChangeTracker) (session : Session) (now : Instant) :
    Action (Attempt ChangeTracker RefreshResult) :=
  let revoked :=
    { session with revokedAt := some now, revocationReason := some .tokenReuseDetected }
  saveAndCommit (tracker.assignSession revoked) now (.reuseCommitted now) do
    AuditLogger.logAsync http .tokenReuseDetected (some session.userId)
    return .failure .reuseDetected (some session.id)

/-- The branch of a token that passed every check. -/
def rotate (tracker : ChangeTracker) (stored : RefreshToken) (session : Session) (now : Instant) :
    Action (Attempt ChangeTracker RefreshResult) := do
  let (issuedRefresh, successor) ← createToken services session.id session.absoluteExpiresAt
  let spent := { stored with usedAt := some now, replacedByTokenId := some successor.id }
  let slid := { session with lastActiveAt := now }
  let roles ← Action.query fun db => db.roleNames session.userId
  let user ← Action.queryOrThrow fun db =>
    Action.single (db.users.filter (·.id = session.userId))
  let accessToken ← AccessTokenIssuer.issueAsync services
    { userId := session.userId
      sessionId := session.id
      emailVerified := user.emailVerified
      roles
      authenticationMethods := session.authenticationMethods
      authenticatedAt := session.authenticatedAt }
  saveAndCommit (((tracker.assignToken spent).addToken successor).assignSession slid) now
      (.refreshTokenSpent stored) do
    AuditLogger.logAsync http .tokenRefreshed (some session.userId)
    return .success session.id accessToken issuedRefresh

/-- The checks on a found token, in their order. -/
def judge (tracker : ChangeTracker) (stored : RefreshToken) (session : Session) (now : Instant) :
    Action (Attempt ChangeTracker RefreshResult) := do
  if stored.usedAt.isSome then
    revokeReplayed http tracker session now
  else if session.revokedAt.isSome then
    return .completed (.failure .sessionRevoked (some session.id))
  else if stored.expiresAt ≤ now then
    return .completed (.failure .tokenExpired (some session.id))
  else if session.absoluteExpiresAt ≤ now then
    return .completed (.failure .sessionExpired (some session.id))
  else if session.lastActiveAt + services.sessionOptions.inactivityWindow ≤ now then
    return .completed (.failure .sessionIdle (some session.id))
  else
    let currentStamp ← Action.queryOrThrow fun db =>
      Action.single ((db.users.filter (·.id = session.userId)).map (·.securityStamp))
    if currentStamp ≠ session.securityStamp then
      return .completed (.failure .securityStampChanged (some session.id))
    else
      rotate services http tracker stored session now

/-- One run of the delegate of `RotateAsync`, with what the context tracks from earlier runs. -/
def attempt (presentedHash : String) (tracker : ChangeTracker) :
    Action (Attempt ChangeTracker RefreshResult) := do
  let found ← Action.queryOrThrow fun db =>
    Action.singleOrDefault (presented presentedHash db)
  match found with
  | none => return .completed (.failure .notFound)
  | some (tokenRow, sessionRow) =>
      let tracker := tracker.resolve tokenRow sessionRow
      let stored := Tracked.instanceOf RefreshToken.id tokenRow tracker.refreshTokens
      let session := Tracked.instanceOf Session.id sessionRow tracker.sessions
      let now ← Action.utcNow
      judge services http tracker stored session now

/-- `EnableRetryOnFailure(maxRetryCount: 3, …)` -/
def maxRetryCount : ℕ := 3

def rotateAsync (presentedToken : String) : Action RefreshResult :=
  Action.executionStrategy
    (attempt services http (services.tokenGenerator.hash presentedToken)) maxRetryCount {}

/-- The tokens that `RevokeForSessionAsync` expires. -/
def outstanding (sessionId : Guid) (now : Instant) (token : RefreshToken) : Bool :=
  token.sessionId = sessionId && token.usedAt = none && now < token.expiresAt

def revokeForSessionAsync (sessionId : Guid) : Action Unit := do
  let now ← Action.utcNow
  let _ ← Action.execute (fun db => db.refreshTokens.countP (outstanding sessionId now))
    (fun db => { db with
      refreshTokens := Table.updateWhere (outstanding sessionId now)
        ({ · with expiresAt := now }) db.refreshTokens })
    fun _ => []

end RefreshTokenService

end AuthStartpack
