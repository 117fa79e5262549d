import AuthStartpack.Exceptions.ExceptionToProblemDetailsMap
import AuthStartpack.Handlers.HttpRequest
import AuthStartpack.Services.Security.CsrfTokenService

/-!
Owns `CsrfProtectionFilter`: the requests that it lets pass, and the problem by
which it answers the others.
-/

namespace AuthStartpack

/-- What the authentication left of a request: its principal, if it authenticated one, and whether
the credential came by the access cookie. -/
structure AuthenticatedRequest where
  request : HttpRequest
  user : Option ClaimsPrincipal
  cookieAuthenticated : Bool

namespace CsrfProtectionFilter

variable (decoder : Base64UrlDecoder) (protections : List CsrfProtection)
  (options : AuthCookieOptions) (now : Instant)

def isSafeMethod (method : String) : Bool :=
  ["GET", "HEAD", "OPTIONS", "TRACE"].any (ClaimsPrincipal.equalsIgnoreCase method)

/-- `FixedTimeEquals`, on texts as they are encoded. -/
def fixedTimeEquals (left : Option String) (right : String) : Bool :=
  left.any (· ≠ "") && right ≠ "" && left = some right

def reject (detail : String) : ProblemDetails where
  status := 403
  title := "CSRF validation failed."
  type := problemType "csrf_validation_failed"
  detail := some detail
  errorCode := "csrf_validation_failed"

/-- The session id of the principal, from the digits of its claim. -/
def sessionId (user : ClaimsPrincipal) : Option Guid :=
  (user.findFirst "sid").bind (·.value.toNat?)

/-- The result that the filter sets, or `none` where it lets the request pass. -/
def onAuthorization (http : AuthenticatedRequest) : Option ProblemDetails :=
  if isSafeMethod http.request.method then none
  else match http.user with
  | none => none
  | some user =>
      if !http.cookieAuthenticated then none
      else
        let cookieToken := http.request.cookie options.csrfCookieName
        let headerToken := http.request.header options.csrfHeaderName
        if !fixedTimeEquals cookieToken headerToken then
          some (reject "The CSRF token is missing or does not match the CSRF cookie.")
        else if !(sessionId user).any fun sessionId =>
            CsrfTokenService.validate decoder protections now headerToken sessionId then
          some (reject "The CSRF token is not valid for this session.")
        else none

/-- A credential that the caller supplied with the request is exempt. -/
theorem onAuthorization_of_unmarked {http : AuthenticatedRequest}
    (unmarked : http.cookieAuthenticated = false) :
    onAuthorization decoder protections options now http = none := by
  unfold onAuthorization
  rw [unmarked]
  cases isSafeMethod http.request.method with
  | true => rfl
  | false =>
      cases http.user with
      | none => rfl
      | some user => rfl

end CsrfProtectionFilter

end AuthStartpack
