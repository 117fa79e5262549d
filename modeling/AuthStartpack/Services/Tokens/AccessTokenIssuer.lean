import AuthStartpack.Data.Keeps
import AuthStartpack.Services.Dependencies

/-!
Owns the access tokens: the claims that `AccessTokenIssuer.IssueAsync` signs. A
token is its claims; the signing key and the signature are not modelled.
-/

namespace AuthStartpack

structure AccessTokenRequest where
  userId : Guid
  sessionId : Guid
  emailVerified : Bool
  roles : List String
  authenticationMethods : List AuthenticationMethod
  authenticatedAt : Instant
deriving DecidableEq, Repr

/-- The payload of a signed access token (`token_use` is `access`). -/
structure AccessToken where
  sub : Guid
  sid : Guid
  jti : Guid
  iat : ℤ
  exp : ℤ
  authTime : ℤ
  emailVerified : Bool
  roles : List String
  amr : List String
deriving DecidableEq, Repr

structure IssuedAccessToken where
  value : AccessToken
  tokenId : Guid
  expiresAt : Instant
deriving DecidableEq, Repr

namespace AccessTokenIssuer

def toAmrValue : AuthenticationMethod → String
  | .password => "pwd"
  | .totp => "otp"
  | .recoveryCode => "recovery"
  | .passkey => "webauthn"
  | .google => "google"
  | .gitHub => "github"

def issueAsync (services : Services) (request : AccessTokenRequest) :
    Action IssuedAccessToken := do
  let issuedAt ← Action.utcNow
  let expiresAt := issuedAt + services.jwtOptions.accessTokenLifetime
  let tokenId ← Action.draw
  return {
    value :=
      { sub := request.userId
        sid := request.sessionId
        jti := tokenId
        iat := toUnixTimeSeconds issuedAt
        exp := toUnixTimeSeconds expiresAt
        authTime := toUnixTimeSeconds request.authenticatedAt
        emailVerified := request.emailVerified
        roles := request.roles
        amr := request.authenticationMethods.map toAmrValue }
    tokenId
    expiresAt }

/-- The claims that a token takes from its request. -/
structure Grants (request : AccessTokenRequest) (token : AccessToken) : Prop where
  sub : token.sub = request.userId
  sid : token.sid = request.sessionId
  authTime : token.authTime = toUnixTimeSeconds request.authenticatedAt

theorem wp_issueAsync {law : Law Input World Event} {call : ℕ} {K : State → State → Prop}
    {state : State} (calm : Calm law call K) {services : Services} {request : AccessTokenRequest}
    {post : Except AppException IssuedAccessToken → State → Prop}
    (rest : ∀ token later, Grants request token.value → K state later → post (.ok token) later) :
    (issueAsync services request).wp law call post state := by
  simp only [issueAsync, Program.wp_bind]
  refine Action.calm_utcNow calm ?_
  intro stamped read
  simp only [Program.andThen_ok, Program.wp_bind]
  refine Action.calm_draw calm ?_
  intro _ drawn earlier drew _
  exact rest _ _ ⟨rfl, rfl, rfl⟩ (calm.trans _ _ _ (calm.trans _ _ _ read earlier) drew)

end AccessTokenIssuer

theorem Keeps.accessToken {law : Law Input World Event} {K : State → State → Prop}
    [∀ call, Calm law call K] (services : Services) (request : AccessTokenRequest) :
    Keeps law K (AccessTokenIssuer.issueAsync services request) :=
  fun _ _ => AccessTokenIssuer.wp_issueAsync inferInstance fun _ _ _ later => later

end AuthStartpack
