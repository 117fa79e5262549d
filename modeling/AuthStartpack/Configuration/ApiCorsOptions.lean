import AuthStartpack.Encoding.Casing

/-!
Owns the configured cross-origin policy and what its validator accepts. The URI
parser belongs to the runtime and is a parameter.
-/

namespace AuthStartpack

/-! ### URIs -/

/-- What two URIs share that are of the same origin. -/
structure Origin where
  scheme : String
  host : String
  port : ℕ
deriving DecidableEq, Repr

/-- The parts of a parsed URI. The port is that of the scheme where the text has none. -/
structure Uri where
  scheme : String
  host : String
  port : ℕ
  absolutePath : String
  query : String
  fragment : String
  userInfo : String
deriving DecidableEq, Repr

def Uri.origin (uri : Uri) : Origin := ⟨uri.scheme, uri.host, uri.port⟩

/-- `Uri.TryCreate` of an absolute URI. -/
structure UriParser where
  tryCreate : String → Option Uri

namespace Origin

def defaultPort (scheme : String) : ℕ := if scheme = "https" then 443 else 80

/-- The origin as a browser writes it. -/
def serialize (origin : Origin) : String :=
  origin.scheme ++ "://" ++ origin.host ++
    if origin.port = defaultPort origin.scheme then "" else ":" ++ toString origin.port

end Origin

namespace OriginRules

/-- The conditions of `IsExactOrigin` on a parsed URI. -/
def isExact (uri : Uri) : Bool :=
  (uri.scheme = "http" || uri.scheme = "https") && uri.absolutePath = "/" && uri.query = "" &&
    uri.fragment = "" && uri.userInfo = ""

def isExactOrigin (parser : UriParser) (value : String) : Option Uri :=
  (parser.tryCreate value).filter isExact

end OriginRules

/-! ### Options -/

namespace AuthCookieDefaults

def transportHeaderName : String := "X-Auth-Transport"

def csrfHeaderName : String := "X-CSRF-Token"

end AuthCookieDefaults

def CorrelationId.headerName : String := "X-Correlation-Id"

/-- The age is in seconds. -/
structure ApiCorsOptions where
  allowedOrigins : List String := []
  cookieModeOrigins : List String := []
  allowedHeaders : List String :=
    ["Content-Type", "Authorization", "Accept", AuthCookieDefaults.csrfHeaderName,
      AuthCookieDefaults.transportHeaderName, CorrelationId.headerName]
  exposedHeaders : List String := [CorrelationId.headerName, "Retry-After"]
  preflightMaxAge : ℕ := 600
deriving DecidableEq, Repr

namespace ApiCorsOptionsValidator

/-- The message of the first origin that is not exact. -/
def validate (parser : UriParser) (options : ApiCorsOptions) : Option String :=
  let origins := options.allowedOrigins ++ options.cookieModeOrigins
  (origins.find? fun origin => (OriginRules.isExactOrigin parser origin).isNone).map fun origin =>
    s!"Cors origin '{origin}' must be an exact HTTP(S) origin; wildcards and paths are forbidden."

theorem validate_eq_none_iff {parser : UriParser} {options : ApiCorsOptions} :
    validate parser options = none ↔
      ∀ configured ∈ options.allowedOrigins ++ options.cookieModeOrigins,
        ∃ uri, parser.tryCreate configured = some uri ∧ OriginRules.isExact uri = true := by
  rw [validate, Option.map_eq_none_iff, List.find?_eq_none]
  apply forall₂_congr
  intro configured _
  rw [Option.isNone_iff_eq_none, OriginRules.isExactOrigin, ← ne_eq, Option.ne_none_iff_exists']
  simp only [Option.filter_eq_some_iff]

end ApiCorsOptionsValidator

end AuthStartpack
