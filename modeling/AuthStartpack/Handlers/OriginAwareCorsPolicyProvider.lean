import AuthStartpack.Configuration.ApiCorsOptions

/-!
Owns the choice of the cross-origin policy, and for which configurations it
matches origins and not just their spellings. The validator accepts whatever
parses to an origin, and the policies compare texts.
-/

namespace AuthStartpack

/-! ### Policies -/

/-- A built policy of the framework. -/
structure CorsPolicy where
  origins : List String
  methods : List String
  headers : List String
  exposedHeaders : List String
  preflightMaxAge : ℕ
  supportsCredentials : Bool
deriving DecidableEq, Repr

namespace CorsPolicy

def isOriginAllowed (policy : CorsPolicy) (origin : String) : Bool := policy.origins.contains origin

/-- The response to this origin lets the browser attach cookies. -/
def allowsCredentials (policy : CorsPolicy) (origin : String) : Bool :=
  policy.isOriginAllowed origin && policy.supportsCredentials

end CorsPolicy

/-- `string.ToLowerInvariant` -/
def Casing.lower (casing : Casing) (text : String) : String :=
  String.ofList (text.toList.map casing.toLower)

namespace OriginAwareCorsPolicyProvider

variable (casing : Casing)

/-- The builder stores the origins in lower case. -/
def buildPolicy (options : ApiCorsOptions) (origins : List String) (allowCredentials : Bool) :
    CorsPolicy where
  origins := origins.map casing.lower
  methods := ["GET", "POST", "PUT", "DELETE", "OPTIONS"]
  headers := options.allowedHeaders
  exposedHeaders := options.exposedHeaders
  preflightMaxAge := options.preflightMaxAge
  supportsCredentials := allowCredentials

def credentialedPolicy (options : ApiCorsOptions) : CorsPolicy :=
  buildPolicy casing options options.cookieModeOrigins true

def bearerPolicy (options : ApiCorsOptions) : CorsPolicy :=
  buildPolicy casing options (options.allowedOrigins ++ options.cookieModeOrigins) false

/-- The origin is the text of the header, which is empty where the request has none. -/
def getPolicyAsync (options : ApiCorsOptions) (origin : String) : CorsPolicy :=
  let isCookieModeOrigin := origin ≠ "" && options.cookieModeOrigins.contains origin
  if isCookieModeOrigin then credentialedPolicy casing options else bearerPolicy casing options

end OriginAwareCorsPolicyProvider

/-! ### Origins -/

namespace UriParser

variable (parser : UriParser) (casing : Casing)

/-- A text that is read as a URI of this origin. -/
def Denotes (text : String) (origin : Origin) : Prop :=
  ∃ uri, parser.tryCreate text = some uri ∧ uri.origin = origin

/-- An origin as a browser sends it. -/
structure Sends (header : String) (origin : Origin) : Prop where
  parses : ∃ uri, parser.tryCreate header = some uri ∧ OriginRules.isExact uri = true ∧
    uri.origin = origin
  serialized : header = origin.serialize

/-- What the parser promises of the texts that the validator accepts: the case of letters does not
matter, scheme and host are in lower case, and the origin is read from its serialization. -/
structure Documented : Prop where
  ignoresCase : ∀ text uri, parser.tryCreate text = some uri → OriginRules.isExact uri = true →
    parser.Denotes (casing.lower text) uri.origin
  lowerCase : ∀ text uri, parser.tryCreate text = some uri → OriginRules.isExact uri = true →
    casing.lower uri.origin.serialize = uri.origin.serialize
  serializes : ∀ text uri, parser.tryCreate text = some uri → OriginRules.isExact uri = true →
    parser.Sends uri.origin.serialize uri.origin

variable {parser}

theorem Denotes.unique {text : String} {origin other : Origin}
    (denotes : parser.Denotes text origin)
    (denotesOther : parser.Denotes text other) : origin = other := by
  obtain ⟨uri, read, rfl⟩ := denotes
  obtain ⟨otherUri, otherRead, rfl⟩ := denotesOther
  rw [read] at otherRead
  cases otherRead
  rfl

theorem Sends.denotes {header : String} {origin : Origin} (sends : parser.Sends header origin) :
    parser.Denotes header origin := by
  obtain ⟨uri, read, -, same⟩ := sends.parses
  exact ⟨uri, read, same⟩

end UriParser

namespace OriginAwareCorsPolicyProvider

variable {parser : UriParser} {casing : Casing} {options : ApiCorsOptions} {header : String}
  {origin : Origin}

/-! ### The grants of the chosen policy -/

theorem serialize_ne_empty (origin : Origin) : origin.serialize ≠ "" := by
  intro empty
  have characters := congrArg String.toList empty
  simp [Origin.serialize] at characters

theorem getPolicyAsync_eq (shown : header ≠ "") :
    getPolicyAsync casing options header =
      if header ∈ options.cookieModeOrigins then credentialedPolicy casing options
      else bearerPolicy casing options := by
  simp [getPolicyAsync, shown]

/-- Credentials are granted to the texts of the list, as they stand there. -/
theorem allowsCredentials_iff (shown : header ≠ "") (lower : casing.lower header = header) :
    (getPolicyAsync casing options header).allowsCredentials header = true ↔
      header ∈ options.cookieModeOrigins := by
  rw [getPolicyAsync_eq shown, CorsPolicy.allowsCredentials, Bool.and_eq_true]
  by_cases listed : header ∈ options.cookieModeOrigins
  · rw [if_pos listed]
    have stored : header ∈ options.cookieModeOrigins.map casing.lower :=
      List.mem_map.mpr ⟨header, listed, lower⟩
    exact ⟨fun _ => listed, fun _ => ⟨List.contains_iff_mem.mpr stored, rfl⟩⟩
  · rw [if_neg listed]
    constructor
    · rintro ⟨-, impossible⟩
      cases impossible
    · exact fun impossible => absurd impossible listed

/-- Requests are granted to the texts of both lists, in lower case. -/
theorem isOriginAllowed_iff (shown : header ≠ "") (lower : casing.lower header = header) :
    (getPolicyAsync casing options header).isOriginAllowed header = true ↔
      header ∈ (options.allowedOrigins ++ options.cookieModeOrigins).map casing.lower := by
  rw [getPolicyAsync_eq shown, CorsPolicy.isOriginAllowed, List.contains_iff_mem]
  by_cases listed : header ∈ options.cookieModeOrigins
  · rw [if_pos listed]
    have stored : header ∈ options.cookieModeOrigins.map casing.lower :=
      List.mem_map.mpr ⟨header, listed, lower⟩
    rw [List.map_append]
    exact ⟨fun _ => List.mem_append_right _ stored, fun _ => stored⟩
  · rw [if_neg listed]
    rfl

/-! ### Matching -/

variable (parser casing options)

/-- Every browser is granted what the options say of its origin, however they spell it. -/
def MatchesOrigins : Prop :=
  ∀ header origin, parser.Sends header origin →
    ((getPolicyAsync casing options header).allowsCredentials header = true ↔
      ∃ configured ∈ options.cookieModeOrigins, parser.Denotes configured origin) ∧
    ((getPolicyAsync casing options header).isOriginAllowed header = true ↔
      ∃ configured ∈ options.allowedOrigins ++ options.cookieModeOrigins,
        parser.Denotes configured origin)

/-- Each origin is listed as browsers write it, in its own list if that is the one for cookies, and
but for case in either of the lists if it is not. -/
structure SpelledForBrowsers : Prop where
  cookieMode : ∀ configured ∈ options.cookieModeOrigins, ∀ uri,
    parser.tryCreate configured = some uri →
    uri.origin.serialize ∈ options.cookieModeOrigins
  bearer : ∀ configured ∈ options.allowedOrigins, ∀ uri, parser.tryCreate configured = some uri →
    uri.origin.serialize ∈ (options.allowedOrigins ++ options.cookieModeOrigins).map casing.lower

variable {parser casing options}

theorem sends_ne_empty (sends : parser.Sends header origin) : header ≠ "" := by
  rw [sends.serialized]
  exact serialize_ne_empty origin

section Matching

variable (documented : parser.Documented casing)
include documented

theorem sends_lower (sends : parser.Sends header origin) : casing.lower header = header := by
  obtain ⟨uri, read, isExact, rfl⟩ := sends.parses
  rw [sends.serialized]
  exact documented.lowerCase header uri read isExact

/-- Whatever is granted, is configured. -/
theorem configured_of_isOriginAllowed
    (accepted : ApiCorsOptionsValidator.validate parser options = none)
    (sends : parser.Sends header origin)
    (stored : header ∈ (options.allowedOrigins ++ options.cookieModeOrigins).map casing.lower) :
    ∃ configured ∈ options.allowedOrigins ++ options.cookieModeOrigins,
      parser.Denotes configured origin := by
  obtain ⟨configured, member, same⟩ := List.mem_map.mp stored
  obtain ⟨uri, read, isExact⟩ :=
    ApiCorsOptionsValidator.validate_eq_none_iff.mp accepted configured member
  have folded := documented.ignoresCase configured uri read isExact
  rw [same] at folded
  exact ⟨configured, member, uri, read, folded.unique sends.denotes⟩

theorem matchesOrigins_iff (accepted : ApiCorsOptionsValidator.validate parser options = none) :
    MatchesOrigins parser casing options ↔ SpelledForBrowsers parser casing options := by
  have exactly := ApiCorsOptionsValidator.validate_eq_none_iff.mp accepted
  constructor
  · intro matching
    constructor
    · intro configured member uri read
      obtain ⟨_, again, isExact⟩ := exactly configured (List.mem_append_right _ member)
      cases read.symm.trans again
      have sends := documented.serializes configured uri read isExact
      have granted := (matching _ _ sends).1.mpr ⟨configured, member, uri, read, rfl⟩
      exact (allowsCredentials_iff (serialize_ne_empty _) (sends_lower documented sends)).mp granted
    · intro configured member uri read
      have either := List.mem_append_left options.cookieModeOrigins member
      obtain ⟨_, again, isExact⟩ := exactly configured either
      cases read.symm.trans again
      have sends := documented.serializes configured uri read isExact
      have granted := (matching _ _ sends).2.mpr ⟨configured, either, uri, read, rfl⟩
      exact (isOriginAllowed_iff (serialize_ne_empty _) (sends_lower documented sends)).mp granted
  · intro spelled header origin sends
    have lower := sends_lower documented sends
    have shown := sends_ne_empty sends
    constructor
    · rw [allowsCredentials_iff shown lower]
      constructor
      · exact fun listed => ⟨header, listed, sends.denotes⟩
      · rintro ⟨configured, member, uri, read, rfl⟩
        rw [sends.serialized]
        exact spelled.cookieMode configured member uri read
    · rw [isOriginAllowed_iff shown lower]
      constructor
      · exact configured_of_isOriginAllowed documented accepted sends
      · rintro ⟨configured, member, uri, read, rfl⟩
        rcases List.mem_append.mp member with inAllowed | inCookieMode
        · rw [sends.serialized]
          exact spelled.bearer configured inAllowed uri read
        · apply List.mem_map.mpr
          refine ⟨header, List.mem_append_right _ ?_, lower⟩
          rw [sends.serialized]
          exact spelled.cookieMode configured inCookieMode uri read

end Matching

/-! ### Spellings of one origin -/

/-- The URI of the sample. -/
def appUri : Uri := ⟨"https", "app.example.com", 443, "/", "", "", ""⟩

def appSpellings : List String :=
  ["https://app.example.com", "https://app.example.com/", "https://app.example.com:443"]

/-- A parser that knows this one origin. -/
def appParser : UriParser where
  tryCreate text := if appSpellings.contains (Casing.ascii.lower text) then some appUri else none

theorem appParser_eq_some {text : String} {uri : Uri} (read : appParser.tryCreate text = some uri) :
    Casing.ascii.lower text ∈ appSpellings ∧ uri = appUri := by
  simp only [appParser, Option.ite_none_right_eq_some, List.contains_iff_mem, Option.some.injEq]
    at read
  exact ⟨read.1, read.2.symm⟩

theorem sends_app : appParser.Sends "https://app.example.com" appUri.origin where
  parses := ⟨appUri, by decide, by decide, rfl⟩
  serialized := by decide

theorem documented_app : appParser.Documented .ascii where
  ignoresCase := by
    intro text uri read _
    obtain ⟨spelled, rfl⟩ := appParser_eq_some read
    have again : ∀ spelling ∈ appSpellings, appParser.tryCreate spelling = some appUri := by decide
    exact ⟨appUri, again _ spelled, rfl⟩
  lowerCase := by
    intro text uri read _
    obtain ⟨-, rfl⟩ := appParser_eq_some read
    decide
  serializes := by
    intro text uri read _
    obtain ⟨-, rfl⟩ := appParser_eq_some read
    exact sends_app

/-- With the origin as browsers write it, another spelling of it does no harm. -/
theorem matchesOrigins_iff_sample :
    MatchesOrigins appParser .ascii
      { cookieModeOrigins := ["https://app.example.com", "https://APP.example.com/"] } := by
  refine (matchesOrigins_iff documented_app (by decide)).mpr ⟨?_, ?_⟩
  · intro configured _ uri read
    obtain ⟨-, rfl⟩ := appParser_eq_some read
    decide
  · intro configured impossible
    cases impossible

/-- Options with a slash at the end or a capital letter are accepted. A browser on the origin of the
first is granted nothing, and one on that of the second no credentials. -/
theorem spellings_lost :
    (ApiCorsOptionsValidator.validate appParser
      { cookieModeOrigins := ["https://app.example.com/"] } = none ∧
      ¬ MatchesOrigins appParser .ascii { cookieModeOrigins := ["https://app.example.com/"] }) ∧
    ApiCorsOptionsValidator.validate appParser
      { cookieModeOrigins := ["https://App.example.com"] } = none ∧
      ¬ MatchesOrigins appParser .ascii { cookieModeOrigins := ["https://App.example.com"] } := by
  refine ⟨⟨by decide, ?_⟩, by decide, ?_⟩
  · intro matching
    have configured : appParser.Denotes "https://app.example.com/" appUri.origin :=
      ⟨appUri, by decide, rfl⟩
    have granted := (matching _ _ sends_app).2.mpr ⟨_, List.mem_singleton_self _, configured⟩
    exact absurd granted (by decide)
  · intro matching
    have configured : appParser.Denotes "https://App.example.com" appUri.origin :=
      ⟨appUri, by decide, rfl⟩
    have granted := (matching _ _ sends_app).1.mpr ⟨_, List.mem_singleton_self _, configured⟩
    exact absurd granted (by decide)

end OriginAwareCorsPolicyProvider

end AuthStartpack
