import Mathlib.Data.List.Basic

/-! Owns the permissions, and `RolePermissionMap`, which assigns them to roles. -/

namespace AuthStartpack

namespace Permissions

def usersReadAny : String := "users:read:any"

def usersWriteAny : String := "users:write:any"

def usersDeleteAny : String := "users:delete:any"

def rolesAssign : String := "roles:assign"

def rolesRevoke : String := "roles:revoke"

def sessionsRevokeAny : String := "sessions:revoke:any"

def auditRead : String := "audit:read"

def all : List String :=
  [usersReadAny, usersWriteAny, usersDeleteAny, rolesAssign, rolesRevoke, sessionsRevokeAny,
    auditRead]

end Permissions

namespace RolePermissionMap

/-- The permissions of a role, of which an unknown one has none. -/
def permissionsFor (role : String) : List String :=
  match [("Admin", Permissions.all), ("User", [])].lookup role with
  | some granted => granted
  | none => []

end RolePermissionMap

end AuthStartpack
