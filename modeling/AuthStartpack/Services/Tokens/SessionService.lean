import AuthStartpack.Data.Alone
import AuthStartpack.Services.Dependencies

/-!
Owns `SessionService`: creating a session with the user's current security
stamp, and the bulk updates that touch, re-authenticate and revoke sessions.
-/

namespace AuthStartpack

structure NewSessionRequest where
  userId : Guid
  authenticationMethods : List AuthenticationMethod
  ipAddress : Option String := none
  userAgent : Option String := none
  deviceLabel : Option String := none

namespace SessionService

/-- The row that `CreateAsync` adds. -/
def newSession (services : Services) (request : NewSessionRequest) (id securityStamp : Guid)
    (now : Instant) : Session where
  id := id
  userId := request.userId
  ipAddress := request.ipAddress
  userAgent := truncate request.userAgent 512
  deviceLabel := request.deviceLabel
  authenticationMethods := request.authenticationMethods
  securityStamp := securityStamp
  authenticatedAt := now
  lastActiveAt := now
  absoluteExpiresAt := now + services.sessionOptions.absoluteLifetime

def createAsync (services : Services) (request : NewSessionRequest) : Action Guid := do
  let now ← Action.utcNow
  let securityStamp ← Action.queryOrThrow fun db =>
    Action.single ((db.users.filter (·.id = request.userId)).map (·.securityStamp))
  let id ← Action.draw
  Action.saveChanges fun savedAt db =>
    db.insertSession savedAt (newSession services request id securityStamp now)
  return id

/-- One bulk update of sessions, which bypasses the change tracker. -/
def updateSessions (pred : Session → Bool) (write : Session → Session) : Action ℕ :=
  Action.execute (fun db => db.sessions.countP pred)
    (fun db => { db with sessions := Table.updateWhere pred write db.sessions }) fun _ => []

/-- The columns that a revocation writes. -/
def revoked (reason : SessionRevocationReason) (now : Instant) (session : Session) : Session :=
  { session with revokedAt := some now, revocationReason := some reason }

def touchAsync (sessionId : Guid) : Action Unit := do
  let now ← Action.utcNow
  let _ ← updateSessions (·.id = sessionId) ({ · with lastActiveAt := now })

def markReauthenticatedAsync (sessionId : Guid) : Action Unit := do
  let now ← Action.utcNow
  let _ ← updateSessions (·.id = sessionId)
    ({ · with authenticatedAt := now, lastActiveAt := now })

def revokeAsync (sessionId : Guid) (reason : SessionRevocationReason) : Action Unit := do
  let now ← Action.utcNow
  let _ ← updateSessions (fun session => session.id = sessionId && session.revokedAt = none)
    (revoked reason now)

/-- The live sessions of a user but one. -/
def otherSession (userId : Guid) (exceptSessionId : Option Guid) (session : Session) : Bool :=
  session.userId = userId && session.revokedAt = none && some session.id ≠ exceptSessionId

def revokeAllForUserAsync (userId : Guid) (exceptSessionId : Option Guid)
    (reason : SessionRevocationReason) : Action ℕ := do
  let now ← Action.utcNow
  updateSessions (otherSession userId exceptSessionId) (revoked reason now)

end SessionService

end AuthStartpack
