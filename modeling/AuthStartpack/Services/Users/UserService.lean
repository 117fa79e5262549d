import AuthStartpack.Services.Audit
import AuthStartpack.Services.Tokens.RefreshTokenService
import AuthStartpack.Services.Tokens.SessionService

/-! Owns `UserService`, as far as it changes the user: the profile, the password and the linked
accounts. -/

namespace AuthStartpack

structure UserProfileResponse where
  id : Guid
  email : String
  emailVerified : Bool
  displayName : Option String
  roles : List String
  mfaEnabled : Bool
  passkeyCount : ℕ
  hasPassword : Bool
  createdAt : Instant
deriving DecidableEq, Repr

namespace UserService

def toProfile (db : Db) (user : User) : UserProfileResponse where
  id := user.id
  email := user.email
  emailVerified := user.emailVerified
  displayName := user.displayName
  roles := db.roleNames user.id
  mfaEnabled := db.totpCredentials.any fun credential =>
    credential.userId = user.id && credential.confirmedAt.isSome
  passkeyCount := db.passkeyCredentials.countP (·.userId = user.id)
  hasPassword := user.passwordHash.isSome
  createdAt := user.createdAt

def getProfileAsync (userId : Guid) : Action UserProfileResponse := do
  let found ← Action.queryOrThrow fun db =>
    Action.singleOrDefault ((db.users.filter (·.id = userId)).map (toProfile db))
  Action.orThrow (.resourceNotFound "user") found

def updateProfileAsync (userId : Guid) (displayName : Option String) :
    Action UserProfileResponse := do
  let found ← Action.queryOrThrow fun db =>
    Action.singleOrDefault (db.users.filter (·.id = userId))
  let user ← Action.orThrow (.resourceNotFound "user") found
  let current := { user with displayName := displayName.map trim }
  Action.saveChanges fun savedAt db => do
    checkText 100 current.displayName
    db.updateUser savedAt user current
  getProfileAsync userId

def deleteAccountAsync (userId : Guid) : Action Unit := do
  let found ← Action.queryOrThrow fun db =>
    Action.singleOrDefault (db.users.filter (·.id = userId))
  let user ← Action.orThrow (.resourceNotFound "user") found
  let _ ← SessionService.revokeAllForUserAsync userId none .accountDeleted
  Action.saveChanges fun _ db => db.deleteUser user

/-- The user has another way to sign in than this account. -/
def hasAlternative (userId accountId : Guid) (db : Db) : Bool :=
  db.users.any fun user => user.id = userId &&
    (user.passwordHash.isSome || db.passkeyCredentials.any (·.userId = userId) ||
      db.accounts.any fun candidate => candidate.userId = userId && candidate.id ≠ accountId)

def unlinkAccountAsync (userId accountId : Guid) : Action Unit := do
  let found ← Action.queryOrThrow fun db =>
    Action.singleOrDefault (db.accounts.filter fun candidate =>
      candidate.id = accountId && candidate.userId = userId)
  let account ← Action.orThrow (.resourceNotFound "linked account") found
  let alternative ← Action.query (hasAlternative userId accountId)
  if !alternative then
    throw
      (.conflict "last_authentication_method" "The last authentication method cannot be removed.")
  Action.saveChanges (fun _ db => db.deleteAccount account)
    fun db => (db.accounts.filter (·.id = account.id)).map (.accountRemoved · alternative)
  SecurityNotificationService.notifyAsync none userId "Linked sign-in account removed"

def changePasswordAsync (services : Services) (http : HttpContext)
    (userId currentSessionId : Guid) (currentPassword newPassword : String) : Action Unit := do
  let found ← Action.queryOrThrow fun db =>
    Action.singleOrDefault (db.users.filter (·.id = userId))
  let user ← Action.orThrow (.resourceNotFound "user") found
  if !user.passwordHash.any (services.passwordHasher.verify currentPassword) then
    throw .invalidCredentials
  let salt ← Action.draw
  let stamp ← Action.draw
  let current :=
    { user with
      passwordHash := some (services.passwordHasher.hash newPassword salt)
      securityStamp := stamp }
  let _ ← SessionService.updateSessions
    (fun session => session.id = currentSessionId && session.userId = userId)
    ({ · with securityStamp := stamp })
  Action.saveChanges fun savedAt db => db.updateUser savedAt user current
  let _ ← SessionService.revokeAllForUserAsync userId (some currentSessionId) .passwordChanged
  AuditLogger.logAsync http .passwordChanged (some userId)
  SecurityNotificationService.notifyAsync (some current) userId "Password changed"

end UserService

end AuthStartpack
