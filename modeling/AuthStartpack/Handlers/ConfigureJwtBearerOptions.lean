import AuthStartpack.Filters.CsrfProtectionFilter

/-!
Owns the choice of the access token of a request: `OnMessageReceived`, and the
bearer handler that raises it. The handler raises the event with no token, and
reads the `Authorization` header only if there is none after it; how it reads
the header is a parameter. Owns also the lifetime check on the chosen token.
-/

namespace AuthStartpack

/-- What the event handler sees and changes. `cookieAuthenticated` is the marker
`AuthTransport.CookieAuthenticatedItemKey` on the items of the request. -/
structure MessageReceivedContext where
  request : HttpRequest
  token : Option String := none
  cookieAuthenticated : Bool := false

namespace ConfigureJwtBearerOptions

variable (options : AuthCookieOptions)

def onMessageReceived (context : MessageReceivedContext) : MessageReceivedContext :=
  if context.token.all (· = "") then
    match context.request.cookie options.accessCookieName with
    | some cookieToken => { context with token := some cookieToken, cookieAuthenticated := true }
    | none => context
  else context

/-- The instants are those of the claims `nbf` and `exp`. -/
def validateLifetime (clockSkew : Duration) (now : Instant) (notBefore expires : Option Instant) :
    Bool :=
  match expires with
  | none => false
  | some expires =>
      if notBefore.any (expires < ·) then false
      else notBefore.all (· ≤ now + clockSkew) && now - clockSkew ≤ expires

end ConfigureJwtBearerOptions

namespace JwtBearerHandler

variable (readHeader : String → Option String) (options : AuthCookieOptions)

/-- The bearer token of the `Authorization` header. -/
def headerToken (request : HttpRequest) : Option String :=
  (readHeader (request.header "Authorization")).filter (· ≠ "")

/-- The token that the request is authenticated by, and the marker. -/
def handleAuthenticate (request : HttpRequest) : MessageReceivedContext :=
  let received := ConfigureJwtBearerOptions.onMessageReceived options { request }
  if received.token.all (· = "") then { received with token := headerToken readHeader request }
  else received

/-- The request as the CSRF filter finds it, for the principal of its token. -/
def authenticate (principal : String → Option ClaimsPrincipal) (request : HttpRequest) :
    AuthenticatedRequest :=
  let handled := handleAuthenticate readHeader options request
  { request
    user := handled.token.bind principal
    cookieAuthenticated := handled.cookieAuthenticated }

/-- A bearer token that the request presents is the one it is authenticated by, without a marker and
without a demand for a CSRF token. Otherwise an access cookie is, with the marker. -/
def BearerBeatsCookie (principal : String → Option ClaimsPrincipal) (decoder : Base64UrlDecoder)
    (protections : List CsrfProtection) (now : Instant) (request : HttpRequest) : Prop :=
  (∀ token, headerToken readHeader request = some token →
    (handleAuthenticate readHeader options request).token = some token ∧
      (handleAuthenticate readHeader options request).cookieAuthenticated = false ∧
      CsrfProtectionFilter.onAuthorization decoder protections options now
        (authenticate readHeader options principal request) = none) ∧
  (headerToken readHeader request = none → ∀ token,
    request.cookie options.accessCookieName = some token → token ≠ "" →
    (handleAuthenticate readHeader options request).token = some token ∧
      (handleAuthenticate readHeader options request).cookieAuthenticated = true)

variable {readHeader options} {request : HttpRequest}

theorem handleAuthenticate_of_cookie {cookieToken : String}
    (cookie : request.cookie options.accessCookieName = some cookieToken) :
    handleAuthenticate readHeader options request =
      ⟨request, if cookieToken = "" then headerToken readHeader request else some cookieToken,
        true⟩ := by
  unfold handleAuthenticate ConfigureJwtBearerOptions.onMessageReceived
  simp only [Option.all_none, if_true, cookie, Option.all_some, decide_eq_true_eq]
  split <;> rfl

theorem handleAuthenticate_of_no_cookie (absent : request.cookie options.accessCookieName = none) :
    handleAuthenticate readHeader options request =
      ⟨request, headerToken readHeader request, false⟩ := by
  unfold handleAuthenticate ConfigureJwtBearerOptions.onMessageReceived
  simp [absent]

/-- The header wins just if there is no access cookie beside it. -/
theorem bearerBeatsCookie_iff (readHeader : String → Option String) (options : AuthCookieOptions)
    (principal : String → Option ClaimsPrincipal) (decoder : Base64UrlDecoder)
    (protections : List CsrfProtection)
    (now : Instant) (request : HttpRequest) :
    BearerBeatsCookie readHeader options principal decoder protections now request ↔
      headerToken readHeader request = none ∨ request.cookie options.accessCookieName = none := by
  constructor
  · rintro ⟨wins, -⟩
    by_contra both
    rw [not_or] at both
    obtain ⟨token, presented⟩ := Option.ne_none_iff_exists'.mp both.1
    obtain ⟨cookieToken, cookie⟩ := Option.ne_none_iff_exists'.mp both.2
    obtain ⟨-, unmarked, -⟩ := wins token presented
    rw [handleAuthenticate_of_cookie cookie] at unmarked
    cases unmarked
  · intro either
    constructor
    · intro token presented
      have absent : request.cookie options.accessCookieName = none := by
        rcases either with none | none
        · rw [none] at presented
          cases presented
        · exact none
      have unmarked :
          (handleAuthenticate readHeader options request).cookieAuthenticated = false := by
        rw [handleAuthenticate_of_no_cookie absent]
      refine ⟨?_, unmarked, ?_⟩
      · rw [handleAuthenticate_of_no_cookie absent]
        exact presented
      · apply CsrfProtectionFilter.onAuthorization_of_unmarked
        exact unmarked
    · intro _ token cookie written
      rw [handleAuthenticate_of_cookie cookie, if_neg written]
      exact ⟨rfl, rfl⟩

/-- The bearer token `header` beside the access cookie `cookie`. -/
theorem bearerBeatsCookie_refuted :
    ¬ BearerBeatsCookie (fun authorization => some (authorization.drop 7).toString) {}
      (fun _ => some []) ⟨Base64Url.decode, Base64Url.decode_encode⟩
      [] 0
      { header := fun name => if name = "Authorization" then "Bearer header" else ""
        cookie := fun name => if name = "__Host-auth.access" then some "cookie" else none } := by
  rintro ⟨wins, -⟩
  obtain ⟨used, -⟩ := wins "header" (by decide)
  exact absurd used (by decide)

end JwtBearerHandler

end AuthStartpack
