import AuthStartpack.Encoding.Base64Url
import AuthStartpack.Handlers.HttpRequest
import AuthStartpack.Program.Returns
import AuthStartpack.Services.ApiKeys.ApiKeyService
import AuthStartpack.Services.Tokens.SignedAccessToken
import Mathlib.Data.List.Infix

/-!
Owns the selector in front of the authentication schemes, which looks for the
marker of an API key anywhere in the `Authorization` header. Every key is routed
to its handler, and so is an access token whose text contains the marker by
chance.
-/

namespace AuthStartpack

namespace ApiKeyAuthenticationHandler

def schemeName : String := "ApiKey"

/-- `KeyPrefix` -/
def keyMarker : String := "ak_"

end ApiKeyAuthenticationHandler

/-- `JwtBearerDefaults.AuthenticationScheme` -/
def jwtBearerScheme : String := "Bearer"

/-- `text.Contains(part, StringComparison.Ordinal)` -/
def containsOrdinal (text part : String) : Bool := part.toList <:+: text.toList

/-- `ForwardDefaultSelector` -/
def forwardDefaultSelector (request : HttpRequest) : String :=
  if containsOrdinal (request.header "Authorization") ApiKeyAuthenticationHandler.keyMarker then
    ApiKeyAuthenticationHandler.schemeName
  else jwtBearerScheme

/-- A request with this `Authorization` header and no other. -/
def HttpRequest.authorizedBy (authorization : String) : HttpRequest where
  header name := if name = "Authorization" then authorization else ""

/-- The text of a token: what is signed, and the signature. -/
def SignedAccessToken.compact (services : Services) (token : SignedAccessToken) : String :=
  AccessTokenIssuer.signingInput services token.header token.payload ++ "." ++ token.signature

/-! ### Texts with separators -/

section Separated

variable {α : Type} {separator : α} {part before after : List α}

theorem prefix_separated (absent : separator ∉ part) :
    part <+: before ++ separator :: after ↔ part <+: before := by
  refine ⟨?_, fun starts => starts.trans (List.prefix_append _ _)⟩
  induction part generalizing before with
  | nil => exact fun _ => List.nil_prefix
  | cons head tail inductionHypothesis =>
      intro starts
      cases before with
      | nil =>
          have equal := (List.cons_prefix_cons.mp starts).1
          exact absurd (equal ▸ List.mem_cons_self) absent
      | cons first rest =>
          obtain ⟨rfl, tails⟩ := List.cons_prefix_cons.mp starts
          apply List.cons_prefix_cons.mpr
          exact ⟨rfl, inductionHypothesis (fun member => absent (.tail _ member)) tails⟩

/-- A part without the separator lies on one of its sides. -/
theorem infix_separated (absent : separator ∉ part) (nonempty : part ≠ []) :
    part <:+: before ++ separator :: after ↔ part <:+: before ∨ part <:+: after := by
  induction before with
  | nil =>
      rw [List.nil_append, List.infix_cons_iff, List.infix_nil]
      have starts : ¬ part <+: separator :: after := by
        intro starts
        have := (@prefix_separated _ _ _ [] _ absent).mp starts
        exact nonempty (List.prefix_nil.mp this)
      simp [starts, nonempty]
  | cons first rest inductionHypothesis =>
      rw [List.cons_append, List.infix_cons_iff, List.infix_cons_iff, inductionHypothesis,
        ← List.cons_append, prefix_separated absent, or_assoc]

end Separated

/-! ### Where the credentials are routed -/

theorem containsOrdinal_iff {text part : String} :
    containsOrdinal text part ↔ part.toList <:+: text.toList := by
  simp [containsOrdinal]

@[simp]
theorem HttpRequest.authorizedBy_header (authorization : String) :
    (HttpRequest.authorizedBy authorization).header "Authorization" = authorization := rfl

theorem forwardDefaultSelector_eq_apiKey {request : HttpRequest} :
    forwardDefaultSelector request = ApiKeyAuthenticationHandler.schemeName ↔
      containsOrdinal (request.header "Authorization") ApiKeyAuthenticationHandler.keyMarker := by
  unfold forwardDefaultSelector
  split
  next found => simp [found]
  next missing =>
    have different : jwtBearerScheme ≠ ApiKeyAuthenticationHandler.schemeName := by decide
    simp [missing, different]

theorem forwardDefaultSelector_eq_bearer {request : HttpRequest} :
    forwardDefaultSelector request = jwtBearerScheme ↔
      ¬ containsOrdinal (request.header "Authorization") ApiKeyAuthenticationHandler.keyMarker := by
  unfold forwardDefaultSelector
  split
  next found =>
    have different : ApiKeyAuthenticationHandler.schemeName ≠ jwtBearerScheme := by decide
    simp [found, different]
  next missing => simp [missing]

/-- The three texts of a token, between its dots. -/
def SignedAccessToken.segments (services : Services) (token : SignedAccessToken) : List String :=
  [services.signing.encodeSegment token.header.segment,
    services.signing.encodeSegment (token.payload.segment services.jwtOptions), token.signature]

/-- The marker has neither a blank nor a dot, so it lies within one of the texts. -/
theorem containsOrdinal_compact (services : Services) (token : SignedAccessToken) :
    containsOrdinal ("Bearer " ++ token.compact services) ApiKeyAuthenticationHandler.keyMarker ↔
      ∃ segment ∈ token.segments services,
        containsOrdinal segment ApiKeyAuthenticationHandler.keyMarker := by
  have blank : ' ' ∉ ApiKeyAuthenticationHandler.keyMarker.toList := by decide
  have dot : '.' ∉ ApiKeyAuthenticationHandler.keyMarker.toList := by decide
  have nonempty : ApiKeyAuthenticationHandler.keyMarker.toList ≠ [] := by decide
  have scheme : ¬ ApiKeyAuthenticationHandler.keyMarker.toList <:+: "Bearer".toList := by decide
  have text : ("Bearer " ++ token.compact services).toList =
      "Bearer".toList ++
        ' ' :: (services.signing.encodeSegment token.header.segment).toList ++
        '.' ::
          ((services.signing.encodeSegment (token.payload.segment services.jwtOptions)).toList ++
            '.' :: token.signature.toList) := by
    simp [SignedAccessToken.compact, AccessTokenIssuer.signingInput]
  simp only [containsOrdinal_iff, SignedAccessToken.segments, List.mem_cons, List.not_mem_nil,
    or_false, exists_eq_or_imp, exists_eq_left]
  rw [text, infix_separated dot nonempty, infix_separated dot nonempty,
    infix_separated blank nonempty]
  exact or_congr (or_iff_right scheme) Iff.rfl

theorem ApiKeyService.containsOrdinal_keyText (scheme keyPrefix secret : String) :
    containsOrdinal (scheme ++ ApiKeyService.keyText keyPrefix secret)
      ApiKeyAuthenticationHandler.keyMarker := by
  rw [containsOrdinal_iff]
  refine ⟨scheme.toList, keyPrefix.toList ++ '_' :: secret.toList, ?_⟩
  simp [ApiKeyService.keyText, ApiKeyAuthenticationHandler.keyMarker]

/-- Every credential that the program hands out, and the scheme it is meant for. -/
theorem credentials_routed (services : Services) :
    (∀ token : SignedAccessToken,
      forwardDefaultSelector (.authorizedBy ("Bearer " ++ token.compact services)) =
          jwtBearerScheme ↔
        ∀ segment ∈ token.segments services,
          ¬ containsOrdinal segment ApiKeyAuthenticationHandler.keyMarker) ∧
      ∀ rounds userId request response,
        (ApiKeyService.createAsync services rounds userId request).Returns response →
          ∀ scheme ∈ ["ApiKey ", ""],
            forwardDefaultSelector (.authorizedBy (scheme ++ response.key)) =
              ApiKeyAuthenticationHandler.schemeName := by
  constructor
  · intro token
    rw [forwardDefaultSelector_eq_bearer, HttpRequest.authorizedBy_header, containsOrdinal_compact]
    push Not
    rfl
  · intro rounds userId request response returns scheme _
    obtain ⟨keyPrefix, secret, key⟩ := ApiKeyService.createAsync_key returns
    rw [forwardDefaultSelector_eq_apiKey, HttpRequest.authorizedBy_header, key]
    exact ApiKeyService.containsOrdinal_keyText scheme keyPrefix secret

/-- A user creates a key without scopes. -/
def createdKey : Option (Except AppException CreateApiKeyResponse × State) :=
  Program.execute (fun _ _ _ _ => True) 0 (fun _ => ⟨10, false⟩)
    (ApiKeyService.createAsync .sample 1 1 { name := "CI", scopes := [] })
    (Shared.initial
      { db := { users := [{ id := 1, email := "ada@example.test", securityStamp := 1 }] },
        supply := 12 }
      ⟨10, false⟩)

set_option maxRecDepth 10000 in
theorem credentials_routed_sample : ∃ response after,
    createdKey = some (.ok response, after) ∧
      forwardDefaultSelector (.authorizedBy ("ApiKey " ++ response.key)) =
        ApiKeyAuthenticationHandler.schemeName := by
  have created : createdKey.any (fun ended => ended.1.toOption.isSome) = true := by decide +kernel
  obtain ⟨⟨outcome, after⟩, executed, succeeds⟩ := (Option.any_eq_true _ _).mp created
  cases outcome with
  | error exception => cases succeeds
  | ok response =>
      have returns := (Program.completes_of_execute executed).returns rfl
      exact ⟨response, after, executed,
        (credentials_routed .sample).2 _ _ _ _ returns _ List.mem_cons_self⟩

/-- The first bytes of these signatures are the ones that are written `ak_A`. -/
def markedServices : Services :=
  { Services.sample with
    signing :=
      { Services.sample.signing with
        signData := fun _ _ _ => Base64Url.encode ([0x6A, 0x4F, 0xC0] ++ List.replicate 61 0)
        encodeSegment := fun segment => Base64Url.encode
          ((Services.sample.signing.encodeSegment segment).toList.map fun character =>
            UInt8.ofNat character.toNat) } }

def issuedToken : Option (Except AppException IssuedSignedToken × State) :=
  Program.execute (fun _ _ _ _ => True) 0 (fun _ => ⟨10, false⟩)
    (AccessTokenIssuer.issueSignedAsync markedServices {} ⟨1, 2, true, ["User"], [.password], 10⟩)
    (Shared.initial { db := {}, supply := 3 } ⟨10, false⟩)

/-- The token that an execution ends with is routed to the handler of the API keys. -/
def routedToKeys (ended : Except AppException IssuedSignedToken × State) : Bool :=
  ended.1.toOption.any fun issued =>
    forwardDefaultSelector (.authorizedBy ("Bearer " ++ issued.value.compact markedServices)) =
      ApiKeyAuthenticationHandler.schemeName

set_option maxRecDepth 10000 in
theorem credentials_misrouted : ∃ request issued,
    (AccessTokenIssuer.issueSignedAsync markedServices {} request).Returns issued ∧
      forwardDefaultSelector (.authorizedBy ("Bearer " ++ issued.value.compact markedServices)) ≠
        jwtBearerScheme := by
  have misrouted : issuedToken.any routedToKeys = true := by decide +kernel
  obtain ⟨⟨outcome, after⟩, executed, routed⟩ := (Option.any_eq_true _ _).mp misrouted
  cases outcome with
  | error exception => cases routed
  | ok issued =>
      refine ⟨_, issued, (Program.completes_of_execute executed).returns rfl, ?_⟩
      intro bearer
      have same : jwtBearerScheme = ApiKeyAuthenticationHandler.schemeName := by
        rw [← bearer]
        simpa [routedToKeys, Except.toOption] using routed
      exact absurd same (by decide)

end AuthStartpack
