import AuthStartpack.Handlers.ApiKeyAuthenticationHandler
import AuthStartpack.Handlers.RolePermissionMap

/-!
Owns the permission checks: the policies that `[RequirePermission]` names, made
on demand, and `PermissionAuthorizationHandler`, which decides them. A key is
held to its own scopes and to the roles of its owner.
-/

namespace AuthStartpack

namespace ClaimsPrincipal

def findAll (type : String) (user : ClaimsPrincipal) : List Claim :=
  user.filter fun claim => equalsIgnoreCase claim.type type

/-- `HasClaim(type, value)` -/
def hasClaim (type value : String) (user : ClaimsPrincipal) : Bool :=
  user.any fun claim => equalsIgnoreCase claim.type type && claim.value = value

end ClaimsPrincipal

def RolePermissionMap.grants (roles : List String) (permission : String) : Bool :=
  roles.any fun role => (permissionsFor role).contains permission

namespace PermissionAuthorizationHandler

def rolesClaimType : String := "roles"

/-- Whether `HandleRequirementAsync` lets the principal succeed, which is `none` for a caller that
is not authenticated. -/
def handleRequirementAsync (user : Option ClaimsPrincipal) (permission : String) : Bool :=
  match user with
  | none => false
  | some user =>
      if (user.any fun claim => claim.type = ApiKeyAuthenticationHandler.apiKeyIdClaimType) &&
          !user.hasClaim ApiKeyAuthenticationHandler.scopeClaimType permission then false
      else
        let roles := (user.findAll rolesClaimType ++
          user.findAll ApiKeyAuthenticationHandler.roleClaimType).map (·.value)
        RolePermissionMap.grants roles permission

end PermissionAuthorizationHandler

/-! ### Policies -/

/-- A policy for authenticated users, by the permissions that it requires. -/
structure AuthorizationPolicy where
  permissions : List String
deriving DecidableEq, Repr

namespace RequirePermissionAttribute

def policyPrefix : String := "perm:"

/-- The name of the policy of `[RequirePermission(permission)]`. -/
def policy (permission : String) : String := policyPrefix ++ permission

end RequirePermissionAttribute

namespace PermissionPolicyProvider

def unknownPermission (permission : String) : AppException :=
  .invalidOperation (s!"Unknown permission '{permission}'. " ++
    "Add it to Permissions and grant it in RolePermissionMap.")

/-- `fallback` has the policies that are registered by name. -/
def getPolicyAsync (fallback : String → Option AuthorizationPolicy) (policyName : String) :
    Except AppException (Option AuthorizationPolicy) :=
  if RequirePermissionAttribute.policyPrefix.toList <+: policyName.toList then
    let permission := String.ofList
      (policyName.toList.drop RequirePermissionAttribute.policyPrefix.toList.length)
    if Permissions.all.contains permission then .ok (some ⟨[permission]⟩)
    else .error (unknownPermission permission)
  else .ok (fallback policyName)

/-- The name is taken apart into the permission it was made of. -/
theorem getPolicyAsync_policy (fallback : String → Option AuthorizationPolicy)
    (permission : String) :
    getPolicyAsync fallback (RequirePermissionAttribute.policy permission) =
      if Permissions.all.contains permission then .ok (some ⟨[permission]⟩)
      else .error (unknownPermission permission) := by
  unfold getPolicyAsync RequirePermissionAttribute.policy
  simp only [String.toList_append, List.prefix_append, if_true, List.drop_left,
    String.ofList_toList]

end PermissionPolicyProvider

/-! ### Keys -/

namespace ApiKeyAuthenticationHandler

variable {key : ApiKey} {roles : List String}

theorem scopeClaim_iff {permission : String} :
    (principal key roles).hasClaim scopeClaimType permission = true ↔ permission ∈ key.scopes := by
  have others : ∀ type ∈ [nameIdentifierClaimType, apiKeyIdClaimType, roleClaimType],
      ClaimsPrincipal.equalsIgnoreCase type scopeClaimType = false := by decide
  have own : ClaimsPrincipal.equalsIgnoreCase scopeClaimType scopeClaimType = true := by decide
  simp [ClaimsPrincipal.hasClaim, principal, others, own]

theorem findAll_roles :
    ((principal key roles).findAll PermissionAuthorizationHandler.rolesClaimType ++
      (principal key roles).findAll roleClaimType).map (·.value) = roles := by
  have absent :
      ∀ type ∈ [nameIdentifierClaimType, apiKeyIdClaimType, roleClaimType, scopeClaimType],
      ClaimsPrincipal.equalsIgnoreCase type PermissionAuthorizationHandler.rolesClaimType =
        false := by
    decide
  have others : ∀ type ∈ [nameIdentifierClaimType, apiKeyIdClaimType, scopeClaimType],
      ClaimsPrincipal.equalsIgnoreCase type roleClaimType = false := by decide
  have own : ClaimsPrincipal.equalsIgnoreCase roleClaimType roleClaimType = true := by decide
  simp [ClaimsPrincipal.findAll, principal, absent, others, own, List.filter_map, Function.comp_def]

/-- A key satisfies a permission just if it is among its scopes and its owner's roles grant it. -/
theorem handleRequirementAsync_principal {permission : String} :
    PermissionAuthorizationHandler.handleRequirementAsync
      (some (principal key roles)) permission = true ↔
      permission ∈ key.scopes ∧ RolePermissionMap.grants roles permission = true := by
  have isKey : ((principal key roles).any fun claim => claim.type = apiKeyIdClaimType) = true := by
    simp [principal]
  unfold PermissionAuthorizationHandler.handleRequirementAsync
  dsimp only
  rw [isKey, findAll_roles, Bool.true_and]
  cases inScope : (principal key roles).hasClaim scopeClaimType permission with
  | true => simp [scopeClaim_iff.mp inScope]
  | false =>
      have outside : permission ∉ key.scopes := by
        intro inside
        rw [scopeClaim_iff.mpr inside] at inScope
        cases inScope
      simp [outside]

end ApiKeyAuthenticationHandler

end AuthStartpack
