import AuthStartpack.Services.Tokens.AccessTokenIssuer
import AuthStartpack.Services.Tokens.SigningKeyManager

/-!
Owns the signing of access tokens: `AccessTokenIssuer.IssueAsync` with the
header and the signature that `issueAsync` leaves out. The header names the key
before it signs, so an attempt during which the active key changes is made
again.
-/

namespace AuthStartpack

structure TokenHeader where
  alg : String
  typ : String := "JWT"
  kid : String
deriving DecidableEq, Repr

def TokenHeader.segment (header : TokenHeader) : List (String × JsonValue) :=
  [("alg", .text header.alg), ("typ", .text header.typ), ("kid", .text header.kid)]

def AccessToken.segment (options : JwtOptions) (token : AccessToken) : List (String × JsonValue) :=
  [("iss", .text options.issuer), ("aud", .text options.audience),
    ("sub", .text (toString token.sub)),
    ("sid", .text (toString token.sid)), ("jti", .text (toString token.jti)),
      ("iat", .number token.iat),
    ("exp", .number token.exp), ("auth_time", .number token.authTime),
    ("email_verified", .flag token.emailVerified), ("roles", .texts token.roles),
    ("amr", .texts token.amr), ("token_use", .text "access")]

/-- A token as it is sent: the encoded header and payload, and the signature over both. -/
structure SignedAccessToken where
  header : TokenHeader
  payload : AccessToken
  signature : String
deriving DecidableEq, Repr

structure IssuedSignedToken where
  value : SignedAccessToken
  tokenId : Guid
  expiresAt : Instant
deriving DecidableEq, Repr

namespace AccessTokenIssuer

variable (services : Services) (http : HttpContext)

/-- The claims of a token with this id that is issued at this instant. -/
def claims (request : AccessTokenRequest) (tokenId : Guid) (issuedAt : Instant) : AccessToken where
  sub := request.userId
  sid := request.sessionId
  jti := tokenId
  iat := toUnixTimeSeconds issuedAt
  exp := toUnixTimeSeconds (issuedAt + services.jwtOptions.accessTokenLifetime)
  authTime := toUnixTimeSeconds request.authenticatedAt
  emailVerified := request.emailVerified
  roles := request.roles
  amr := request.authenticationMethods.map toAmrValue

/-- What is signed. -/
def signingInput (header : TokenHeader) (payload : AccessToken) : String :=
  services.signing.encodeSegment header.segment ++ "." ++
    services.signing.encodeSegment (payload.segment services.jwtOptions)

def changedRepeatedly : AppException :=
  .invalidOperation
    "The active signing key changed repeatedly while an access token was being issued."

/-- So many attempts to sign the payload with the key that the header names. -/
def signPayload (payload : AccessToken) : ℕ → Action SignedAccessToken
  | 0 => throw changedRepeatedly
  | attempts + 1 => do
      let keyId ← SigningKeyManager.getActiveKeyIdAsync services
      let header : TokenHeader := { alg := services.jwtOptions.algorithm, kid := keyId }
      let signature ←
        SigningKeyManager.signAsync services http (signingInput services header payload)
      if signature.keyId ≠ keyId then
        signPayload payload attempts
      else
        return { header, payload, signature := signature.signature }

def issueSignedAsync (request : AccessTokenRequest) : Action IssuedSignedToken := do
  let issuedAt ← Action.utcNowReporting .accessTokenDated
  let tokenId ← Action.draw
  let value ← signPayload services http (claims services request tokenId issuedAt) 3
  return { value, tokenId, expiresAt := issuedAt + services.jwtOptions.accessTokenLifetime }

end AccessTokenIssuer

end AuthStartpack
