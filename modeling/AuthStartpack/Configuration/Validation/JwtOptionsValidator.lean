import AuthStartpack.Configuration.ApiCorsOptions
import AuthStartpack.Services.Dependencies

/-!
Owns the checks that the settings of access tokens pass at startup, the first
failure first. Whether a URI is a loopback address is decided by the runtime.
-/

namespace AuthStartpack

inductive ValidateOptionsResult
  | success
  | fail (failureMessage : String)
deriving DecidableEq, Repr

namespace JwtOptionsValidator

variable (parser : UriParser) (isLoopback : Uri → Bool) (productionLike : Bool)

def validate (options : JwtOptions) : ValidateOptionsResult :=
  if options.algorithm ≠ "ES256" then .fail "Jwt:Algorithm must be ES256."
  else if options.keyRetirementGrace < options.accessTokenLifetime + options.clockSkew then
    .fail "Jwt:KeyRetirementGrace must be at least AccessTokenLifetime + ClockSkew."
  else
    match parser.tryCreate options.issuer with
    | none => .fail "Jwt:Issuer must be an absolute URI."
    | some issuer =>
        if productionLike && (issuer.scheme ≠ "https" || isLoopback issuer) then
          .fail "Jwt:Issuer must be a non-loopback HTTPS URI outside Development and Testing."
        else .success

/-- The grace period covers the time for which a token is accepted. -/
theorem grace_of_success {parser : UriParser} {isLoopback : Uri → Bool} {productionLike : Bool}
    {options : JwtOptions}
    (accepted : validate parser isLoopback productionLike options = .success) :
    options.accessTokenLifetime + options.clockSkew ≤ options.keyRetirementGrace := by
  unfold validate at accepted
  split at accepted
  · cases accepted
  · split at accepted
    · cases accepted
    · exact Int.not_lt.mp ‹_›

end JwtOptionsValidator

end AuthStartpack
