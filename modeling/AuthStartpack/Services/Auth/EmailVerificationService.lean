import AuthStartpack.Services.Audit
import AuthStartpack.Services.Tokens.VerificationTokens

/-! Owns `EmailVerificationService`: sending a verification token by mail and confirming the address
with it. -/

namespace AuthStartpack

structure EmailVerifiedResponse where
  email : String
  verifiedAt : Instant
deriving DecidableEq, Repr

namespace EmailVerificationService

def tokenLifetime : Duration := 24 * 3600 * ticksPerSecond

def sendAsync (services : Services) (userId : Guid) : Action Unit := do
  let found ← Action.queryOrThrow fun db =>
    Action.singleOrDefault (db.users.filter (·.id = userId))
  let user ← Action.orThrow (.resourceNotFound "user") found
  if user.emailVerified then
    throw (.conflict "email_already_verified" "The email address is already verified.")
  let token ← VerificationTokens.store services (some user.id) .emailVerification tokenLifetime
  Action.queueEmail
    { recipient := user.email
      subject := "Verify your email address"
      template := "EmailVerification"
      values := [("Token", token.value)] }

/-- The verification of the user whose token was consumed. A token without a user verifies
nobody. -/
def verifyOwnerAsync (http : HttpContext) (hash : String) (now : Instant) :
    Action EmailVerifiedResponse := do
  let owner ← VerificationTokens.userOf hash
  let user ← Action.queryOrThrow fun db =>
    Action.single (db.users.filter fun candidate => some candidate.id = owner)
  let current := { user with emailVerified := true }
  Action.saveChanges fun savedAt db => db.updateUser savedAt user current
  AuditLogger.logAsync http .emailVerified (some user.id)
  return { email := user.email, verifiedAt := now }

def confirmAsync (services : Services) (http : HttpContext) (token : String) :
    Action EmailVerifiedResponse := do
  let hash := services.tokenGenerator.hash token
  let now ← Action.utcNow
  let consumed ←
    VerificationTokens.consume hash .emailVerification now (fun _ => true) .emailVerification
  if consumed = 0 then
    throw .invalidToken
  verifyOwnerAsync http hash now

end EmailVerificationService

end AuthStartpack
