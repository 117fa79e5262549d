import AuthStartpack.Services.Tokens.RefreshTokenService
import AuthStartpack.Services.Tokens.SessionService

/-!
Owns `AuthenticationSessionFactory`: what every completed sign-in ends with, a
session, its first refresh token and an access token.
-/

namespace AuthStartpack

structure UserSummary where
  id : Guid
  email : String
  emailVerified : Bool
  displayName : Option String
  roles : List String
deriving DecidableEq, Repr

/-- The response with what the transport delivers beside it, in the body or in cookies. -/
structure LoginResponse where
  tokenType : String := "Bearer"
  expiresAt : Instant
  user : UserSummary
  sessionId : Guid
  accessToken : AccessToken
  refreshToken : String
deriving DecidableEq, Repr

namespace AuthenticationSessionFactory

def deviceLabel (userAgent : Option String) : Option String :=
  if isNullOrWhiteSpace userAgent then none else truncate userAgent 100

def createAsync (services : Services) (http : HttpContext) (userId : Guid)
    (methods : List AuthenticationMethod) : Action LoginResponse := do
  let user ← Action.queryOrThrow fun db => Action.single (db.users.filter (·.id = userId))
  let roles ← Action.query fun db => db.roleNames userId
  let now ← Action.utcNow
  let sessionId ← SessionService.createAsync services
    { userId
      authenticationMethods := methods
      ipAddress := http.remoteIpAddress
      userAgent := http.userAgent
      deviceLabel := deviceLabel http.userAgent }
  let refresh ← RefreshTokenService.issueAsync services sessionId
  let access ← AccessTokenIssuer.issueAsync services
    { userId
      sessionId
      emailVerified := user.emailVerified
      roles
      authenticationMethods := methods
      authenticatedAt := now }
  return {
    expiresAt := access.expiresAt
    user := ⟨user.id, user.email, user.emailVerified, user.displayName, roles⟩
    sessionId
    accessToken := access.value
    refreshToken := refresh.value }

end AuthenticationSessionFactory

end AuthStartpack
