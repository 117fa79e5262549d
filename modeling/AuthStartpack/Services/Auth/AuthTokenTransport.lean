import AuthStartpack.Handlers.HttpRequest
import AuthStartpack.Services.Auth.RefreshService

/-!
Owns the delivery of `AuthTokenTransport`: a rotated pair goes into the body of
the response or into cookies, and `RefreshService.RefreshAsync` answers with it.
The text of an access token and the CSRF token for a session are parameters.
-/

namespace AuthStartpack

inductive SameSiteMode
  | lax
  | strict
deriving DecidableEq, Repr

/-- A cookie that the response appends. -/
structure SetCookie where
  name : String
  value : String
  httpOnly : Bool
  secure : Bool
  sameSite : SameSiteMode
  path : String
  expires : Option Instant := none
deriving DecidableEq, Repr

/-- The body of the response with the cookies beside it. -/
structure DeliveredTokenPair where
  tokenType : String
  expiresAt : Instant
  accessToken : Option String
  refreshToken : Option String
  cookies : List SetCookie
deriving DecidableEq, Repr

/-- What the transport needs of its dependencies. -/
structure TransportServices where
  options : AuthCookieOptions
  /-- The compact form of an access token. -/
  serialize : AccessToken → String
  /-- `CsrfTokenService.Issue` -/
  issueCsrfToken : Guid → String

namespace AuthTokenTransport

variable (transport : TransportServices) (request : HttpRequest)

def cookieTransportRequested : Bool :=
  ClaimsPrincipal.equalsIgnoreCase (request.header transport.options.transportHeaderName) "cookie"

def refreshUsesCookies : Bool :=
  cookieTransportRequested transport request ||
    (request.cookie transport.options.refreshCookieName).isSome

def cookie (name value : String) (httpOnly : Bool) (sameSite : SameSiteMode) (path : String)
    (expires : Option Instant := none) : SetCookie where
  name
  value
  httpOnly
  secure := transport.options.requireSecure
  sameSite
  path
  expires

/-- The cookies of `WriteAuthCookies`, with the one that `IssueCsrf` appends. -/
def authCookies (sessionId : Guid) (accessToken refreshToken : String) (accessExpiresAt : Instant) :
    List SetCookie :=
  [cookie transport transport.options.accessCookieName accessToken true .lax "/" accessExpiresAt,
    cookie transport transport.options.refreshCookieName refreshToken true .strict
      transport.options.refreshCookiePath,
    cookie transport transport.options.csrfCookieName
      (transport.issueCsrfToken sessionId) false .lax
      "/"]

def deliverRefresh (pair : TokenPairResponse) : DeliveredTokenPair :=
  let accessToken := transport.serialize pair.accessToken
  if !refreshUsesCookies transport request then
    ⟨pair.tokenType, pair.expiresAt, some accessToken, some pair.refreshToken, []⟩
  else
    ⟨pair.tokenType, pair.expiresAt, none, none,
      authCookies transport pair.sessionId accessToken pair.refreshToken pair.expiresAt⟩

end AuthTokenTransport

namespace RefreshService

variable (services : Services) (http : HttpContext)

/-- The answer to a rotation. -/
def answer (result : RefreshResult) : Action TokenPairResponse :=
  match result.outcome, result.sessionId, result.accessToken, result.refreshToken with
  | .reuseDetected, some reusedSessionId, _, _ => throw (.tokenReuseDetected reusedSessionId)
  | .rotated, some sessionId, some access, some refresh =>
      return {
        expiresAt := access.expiresAt
        sessionId
        accessToken := access.value
        refreshToken := refresh.value }
  | _, _, _, _ => throw .invalidCredentials

/-- The token that is handed to `RotateAsync`. -/
def rotatedToken (cookieToken bodyToken : Option String) : Option String :=
  (AuthTokenTransport.readRefreshToken cookieToken bodyToken).filter fun presented =>
    !isNullOrWhiteSpace (some presented)

theorem refreshAsync_eq (cookieToken bodyToken : Option String) :
    refreshAsync services http cookieToken bodyToken =
      match rotatedToken cookieToken bodyToken with
      | none => throw .invalidCredentials
      | some token => RefreshTokenService.rotateAsync services http token >>= answer := by
  unfold refreshAsync rotatedToken
  cases AuthTokenTransport.readRefreshToken cookieToken bodyToken with
  | none => rfl
  | some presented =>
      cases blank : isNullOrWhiteSpace (some presented) with
      | true =>
          rw [Option.filter_some, blank]
          exact if_pos blank
      | false =>
          rw [Option.filter_some, blank]
          exact if_neg (Bool.eq_false_iff.mp blank)

/-- A refresh with its delivery. -/
def deliveredRefreshAsync (transport : TransportServices) (request : HttpRequest)
    (bodyToken : Option String) : Action DeliveredTokenPair := do
  let pair ← refreshAsync services http
    (request.cookie transport.options.refreshCookieName) bodyToken
  return AuthTokenTransport.deliverRefresh transport request pair

end RefreshService

end AuthStartpack
