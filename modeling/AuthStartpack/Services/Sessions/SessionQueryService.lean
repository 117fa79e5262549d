import AuthStartpack.Services.Audit
import AuthStartpack.Services.Tokens.RefreshTokenService
import AuthStartpack.Services.Tokens.SessionService

/-!
Owns the operations by which a user ends sessions: `SessionQueryService`, whose
revocations also expire the refresh tokens, and `LogoutService`.
-/

namespace AuthStartpack

namespace SessionQueryService

def revokeAsync (http : HttpContext) (userId sessionId : Guid) : Action Unit := do
  let found ← Action.query fun db => db.sessions.any fun session =>
    session.id = sessionId && session.userId = userId && session.revokedAt = none
  if !found then
    throw (.resourceNotFound "session")
  SessionService.revokeAsync sessionId .userRevokedSession
  RefreshTokenService.revokeForSessionAsync sessionId
  AuditLogger.logAsync http .sessionRevoked (some userId)

/-- The tokens that the revocation of these sessions expires. -/
def outstanding (sessionIds : List Guid) (now : Instant) (token : RefreshToken) : Bool :=
  sessionIds.contains token.sessionId && token.usedAt = none && now < token.expiresAt

/-- The number of sessions revoked. -/
def revokeAllOthersAsync (http : HttpContext) (userId currentSessionId : Guid) : Action ℕ := do
  let sessionIds ← Action.query fun db =>
    (db.sessions.filter (SessionService.otherSession userId (some currentSessionId))).map (·.id)
  let count ← SessionService.revokeAllForUserAsync userId (some currentSessionId)
    .userRevokedAllSessions
  if 0 < sessionIds.length then
    let now ← Action.utcNow
    let _ ← Action.execute (fun db => db.refreshTokens.countP (outstanding sessionIds now))
      (fun db => { db with
        refreshTokens := Table.updateWhere (outstanding sessionIds now)
          ({ · with expiresAt := now }) db.refreshTokens })
      fun _ => []
    AuditLogger.logAsync http .sessionRevoked (some userId)
  return count

end SessionQueryService

namespace LogoutService

def logoutAsync (http : HttpContext) (userId sessionId : Guid) : Action Unit := do
  SessionService.revokeAsync sessionId .logout
  RefreshTokenService.revokeForSessionAsync sessionId
  AuditLogger.logAsync http .sessionRevoked (some userId)

end LogoutService

end AuthStartpack
