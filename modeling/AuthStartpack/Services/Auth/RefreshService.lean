import AuthStartpack.Services.Tokens.RefreshTokenService

/-!
Owns `RefreshService`: reading the presented refresh token from cookie and body,
and answering a rotation.
-/

namespace AuthStartpack

/-- The response with what the transport delivers beside it, in the body or in cookies. -/
structure TokenPairResponse where
  tokenType : String := "Bearer"
  expiresAt : Instant
  sessionId : Guid
  accessToken : AccessToken
  refreshToken : String
deriving DecidableEq, Repr

namespace AuthTokenTransport

/-- A cookie and a body that contradict each other present nothing. -/
def readRefreshToken (cookieToken bodyToken : Option String) : Option String :=
  if cookieToken.any (· ≠ "") && bodyToken.any (· ≠ "") && cookieToken ≠ bodyToken then none
  else cookieToken <|> bodyToken

end AuthTokenTransport

namespace RefreshService

def refreshAsync (services : Services) (http : HttpContext)
    (cookieToken bodyToken : Option String) :
    Action TokenPairResponse := do
  match AuthTokenTransport.readRefreshToken cookieToken bodyToken with
  | none => throw .invalidCredentials
  | some presented =>
      if isNullOrWhiteSpace (some presented) then throw .invalidCredentials
      else
        let result ← RefreshTokenService.rotateAsync services http presented
        match result.outcome, result.sessionId, result.accessToken, result.refreshToken with
        | .reuseDetected, some reusedSessionId, _, _ => throw (.tokenReuseDetected reusedSessionId)
        | .rotated, some sessionId, some access, some refresh =>
            return {
              expiresAt := access.expiresAt
              sessionId
              accessToken := access.value
              refreshToken := refresh.value }
        | _, _, _, _ => throw .invalidCredentials

end RefreshService

end AuthStartpack
