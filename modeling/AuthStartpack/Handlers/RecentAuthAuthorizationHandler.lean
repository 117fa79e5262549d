import Mathlib
import AuthStartpack.Handlers.ClaimsPrincipal
import AuthStartpack.Services.Dependencies
import Std.Data.String.ToInt

/-!
Owns `RecentAuthAuthorizationHandler`, the step-up check. It parses the
`auth_time` claim of the principal back from its digits and measures its age.
-/

namespace AuthStartpack

namespace RecentAuthAuthorizationHandler

def authTimeClaimType : String := "auth_time"

/-- `long.TryParse` on the digits of a number. -/
def tryParse (text : String) : Option ℤ :=
  text.toInt?.filter fun value => -2 ^ 63 ≤ value && value < 2 ^ 63

/-- `DateTimeOffset.FromUnixTimeSeconds`, which throws outside the calendar. -/
def fromUnixTimeSeconds (seconds : ℤ) : Option Instant :=
  if -62135596800 ≤ seconds && seconds ≤ 253402300799 then some (seconds * ticksPerSecond) else none

/-- Whether `HandleRequirementAsync` lets the principal succeed at this reading. -/
def handleRequirementAsync (options : AuthSessionOptions) (now : Instant) (user : ClaimsPrincipal) :
    Bool :=
  match (user.findFirst authTimeClaimType).bind fun claim => tryParse claim.value with
  | none => false
  | some epochSeconds =>
      (fromUnixTimeSeconds epochSeconds).any fun authenticatedAt =>
        let age := now - authenticatedAt
        0 ≤ age && age < options.recentAuthenticationWindow

variable {options : AuthSessionOptions} {now : Instant}

/-- Without `auth_time` the requirement is never met. -/
theorem denied_without_authTime {user : ClaimsPrincipal}
    (absent : user.findFirst authTimeClaimType = none) :
    handleRequirementAsync options now user = false := by
  simp [handleRequirementAsync, absent]

theorem apiKey_without_authTime (key : ApiKey) (roles : List String) :
    ClaimsPrincipal.findFirst authTimeClaimType (ApiKeyAuthenticationHandler.principal key roles) =
      none := by
  have others : ∀ type ∈ [ApiKeyAuthenticationHandler.nameIdentifierClaimType,
      ApiKeyAuthenticationHandler.apiKeyIdClaimType, ApiKeyAuthenticationHandler.roleClaimType,
      ApiKeyAuthenticationHandler.scopeClaimType],
      ¬ ClaimsPrincipal.equalsIgnoreCase type authTimeClaimType = true := by
    decide
  unfold ClaimsPrincipal.findFirst
  rw [List.find?_eq_none]
  intro claim member
  refine others claim.type ?_
  simp only [ApiKeyAuthenticationHandler.principal, List.mem_append, List.mem_cons, List.mem_map,
    List.not_mem_nil, or_false] at member
  rcases member with ((rfl | rfl) | ⟨role, -, rfl⟩) | ⟨scope, -, rfl⟩ <;> simp

/-- The claim is found in the token, and its digits are read back as its number. -/
theorem parsed_accessToken (token : AccessToken) :
    ((token.principal.findFirst authTimeClaimType).bind fun claim => tryParse claim.value) =
      (some token.authTime).filter fun value => -2 ^ 63 ≤ value && value < 2 ^ 63 := by
  have found : token.principal.findFirst authTimeClaimType =
      some ⟨"auth_time", token.authTime.repr⟩ := by
    have others : ∀ type ∈ ["sub", "sid", "jti", "iat", "exp"],
        ClaimsPrincipal.equalsIgnoreCase type authTimeClaimType = false := by
      decide
    have own : ClaimsPrincipal.equalsIgnoreCase "auth_time" authTimeClaimType = true := by decide
    simp [ClaimsPrincipal.findFirst, AccessToken.principal, others, own]
  rw [found, Option.bind_some, tryParse, Int.toInt?_repr]

/-- A token meets the requirement only within the window after its `auth_time`. -/
theorem recent_of_accessToken {token : AccessToken}
    (succeeds : handleRequirementAsync options now token.principal = true) :
    token.authTime * ticksPerSecond ≤ now ∧
      now < token.authTime * ticksPerSecond + options.recentAuthenticationWindow := by
  unfold handleRequirementAsync at succeeds
  rw [parsed_accessToken] at succeeds
  split at succeeds
  case h_1 => cases succeeds
  case h_2 epochSeconds parsed =>
    rw [Option.filter_eq_some_iff] at parsed
    cases parsed.1
    unfold fromUnixTimeSeconds at succeeds
    split at succeeds
    case isFalse => cases succeeds
    case isTrue =>
      simp only [Option.any_some, Bool.and_eq_true, decide_eq_true_eq] at succeeds
      obtain ⟨past, recent⟩ := succeeds
      exact ⟨Int.sub_nonneg.mp past, by rwa [Int.sub_lt_iff, Int.add_comm] at recent⟩

end RecentAuthAuthorizationHandler

end AuthStartpack
