import AuthStartpack.Services.Tokens.AccessTokenIssuer

/-!
Owns the principals that the authentication handlers build: lists of claims, each
a type and a value. `JwtBearerHandler` takes the claims as the token spells them
(`MapInboundClaims = false`), a number by its digits and an array claim by claim.
-/

namespace AuthStartpack

structure Claim where
  type : String
  value : String
deriving DecidableEq, Repr

abbrev ClaimsPrincipal := List Claim

namespace ClaimsPrincipal

/-- `StringComparison.OrdinalIgnoreCase` -/
def equalsIgnoreCase (left right : String) : Bool :=
  left.toList.map Char.toUpper = right.toList.map Char.toUpper

def findFirst (type : String) (user : ClaimsPrincipal) : Option Claim :=
  user.find? fun claim => equalsIgnoreCase claim.type type

end ClaimsPrincipal

/-- The principal of a validated access token. Issuer and audience are the configured ones. -/
def AccessToken.principal (token : AccessToken) : ClaimsPrincipal :=
  [⟨"sub", token.sub.repr⟩, ⟨"sid", token.sid.repr⟩, ⟨"jti", token.jti.repr⟩,
    ⟨"iat", token.iat.repr⟩, ⟨"exp", token.exp.repr⟩, ⟨"auth_time", token.authTime.repr⟩,
    ⟨"email_verified", if token.emailVerified then "true" else "false"⟩] ++
  token.roles.map (⟨"roles", ·⟩) ++ token.amr.map (⟨"amr", ·⟩) ++ [⟨"token_use", "access"⟩]

namespace ApiKeyAuthenticationHandler

def nameIdentifierClaimType : String :=
  "http://schemas.xmlsoap.org/ws/2005/05/identity/claims/nameidentifier"

def roleClaimType : String := "http://schemas.microsoft.com/ws/2008/06/identity/claims/role"

def apiKeyIdClaimType : String := "api_key_id"

def scopeClaimType : String := "scope"

/-- The principal of an accepted key, with the names of its owner's roles. -/
def principal (key : ApiKey) (roles : List String) : ClaimsPrincipal :=
  [⟨nameIdentifierClaimType, key.userId.repr⟩, ⟨apiKeyIdClaimType, key.id.repr⟩] ++
  roles.map (⟨roleClaimType, ·⟩) ++ key.scopes.map (⟨scopeClaimType, ·⟩)

end ApiKeyAuthenticationHandler

end AuthStartpack
