import AuthStartpack.Services.Audit
import AuthStartpack.Services.Tokens.SessionService
import AuthStartpack.Services.Tokens.VerificationTokens

/-! Owns `PasswordResetService`: requesting a reset token by mail and confirming it. -/

namespace AuthStartpack

namespace PasswordResetService

def tokenLifetime : Duration := 3600 * ticksPerSecond

def requestAsync (services : Services) (http : HttpContext) (email : String) : Action Unit := do
  let found ← Action.queryOrThrow fun db =>
    Action.singleOrDefault (db.users.filter (sameEmail services.lower ·.email (trim email)))
  match found with
  | none => return ()
  | some user =>
      let token ← VerificationTokens.store services (some user.id) .passwordReset tokenLifetime
      AuditLogger.logAsync http .passwordResetRequested (some user.id)
      Action.queueEmail
        { recipient := user.email
          subject := "Reset your password"
          template := "PasswordReset"
          values := [("Token", token.value)] }

def confirmAsync (services : Services) (http : HttpContext) (token newPassword : String) :
    Action Unit := do
  let hash := services.tokenGenerator.hash token
  let now ← Action.utcNow
  let consumed ← VerificationTokens.consume hash .passwordReset now (fun _ => true) .passwordReset
  if consumed = 0 then
    throw .invalidToken
  let userId ← Action.orThrow .invalidToken (← VerificationTokens.userOf hash)
  let user ← Action.queryOrThrow fun db => Action.single (db.users.filter (·.id = userId))
  let salt ← Action.draw
  let stamp ← Action.draw
  let current :=
    { user with
      passwordHash := some (services.passwordHasher.hash newPassword salt)
      securityStamp := stamp }
  Action.saveChanges fun savedAt db => db.updateUser savedAt user current
  let revoked ← SessionService.revokeAllForUserAsync userId none .passwordReset
  AuditLogger.logAsync http .passwordResetCompleted (some userId)
  SecurityNotificationService.notifyAsync (some current) userId "Password reset completed"
  if 0 < revoked then
    AuditLogger.logAsync http .sessionRevoked (some userId)

end PasswordResetService

end AuthStartpack
