import AuthStartpack.Data.Actions

/-! Owns `AdminRoleService`: granting a role to a user, and taking it away again. -/

namespace AuthStartpack

def Db.deleteUserRole (db : Db) (row : UserRole) : Except AppException Db :=
  if db.userRoles.any fun other => other.userId = row.userId && other.roleId = row.roleId then
    .ok { db with
      userRoles := Table.deleteWhere
        (fun other => other.userId = row.userId && other.roleId = row.roleId) db.userRoles }
  else .error .dbUpdateConcurrency

namespace AdminRoleService

/-- The row says that the user has the role. -/
def assigns (userId roleId : Guid) (row : UserRole) : Bool :=
  row.userId = userId && row.roleId = roleId

def ensureTargetsAsync (userId roleId : Guid) : Action Unit := do
  if !(← Action.query fun db => db.hasUser userId) then
    throw (.resourceNotFound "user")
  if !(← Action.query fun db => db.roles.any (·.id = roleId)) then
    throw (.resourceNotFound "role")

def grantAsync (userId roleId : Guid) : Action Unit := do
  ensureTargetsAsync userId roleId
  let assigned ← Action.query fun db => db.userRoles.any (assigns userId roleId)
  if assigned then return ()
  else Action.saveChanges fun savedAt db => db.insertUserRole savedAt { userId, roleId }

def revokeAsync (userId roleId : Guid) : Action Unit := do
  let found ← Action.queryOrThrow fun db =>
    Action.singleOrDefault (db.userRoles.filter (assigns userId roleId))
  let assignment ← Action.orThrow (.resourceNotFound "role assignment") found
  Action.saveChanges fun _ db => db.deleteUserRole assignment

end AdminRoleService

end AuthStartpack
