import AuthStartpack.Handlers.ClaimsPrincipal

/-!
Owns requests, as far as the credentials of the caller are read from them, and
`AuthCookieOptions`, which names the cookies and headers that carry them.
-/

namespace AuthStartpack

/-- A request by its method and lookups. The text of a header that is absent is empty. -/
structure HttpRequest where
  method : String := "POST"
  header : String → String := fun _ => ""
  cookie : String → Option String := fun _ => none

structure AuthCookieOptions where
  accessCookieName : String := "__Host-auth.access"
  refreshCookieName : String := "__Secure-auth.refresh"
  csrfCookieName : String := "__Host-auth.csrf"
  refreshCookiePath : String := "/api/v1/auth/refresh"
  transportHeaderName : String := "X-Auth-Transport"
  csrfHeaderName : String := "X-CSRF-Token"
  requireSecure : Bool := true
deriving DecidableEq, Repr

/-- A request without headers that presents these cookies. -/
def HttpRequest.ofCookies (cookies : List (String × String)) : HttpRequest where
  cookie name := cookies.lookup name

end AuthStartpack
