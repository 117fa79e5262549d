import AuthStartpack.Services.Users.UserService

/-! Owns `AdminUserService` and `AdminSessionService`, as far as they change a user. -/

namespace AuthStartpack

structure AdminUpdateUserRequest where
  displayName : Option String := none
  emailVerified : Option Bool := none
  unlock : Option Bool := none
deriving DecidableEq, Repr

structure SessionSummary where
  id : Guid
  deviceLabel : Option String
  ipAddress : Option String
  createdAt : Instant
  lastActiveAt : Instant
  absoluteExpiresAt : Instant
  revokedAt : Option Instant
deriving DecidableEq, Repr

structure AdminUserDetailResponse where
  id : Guid
  email : String
  emailVerified : Bool
  displayName : Option String
  roles : List String
  lockoutEndsAt : Option Instant
  failedLoginCount : ℕ
  mfaEnabled : Bool
  hasPassword : Bool
  linkedProviders : List String
  activeSessions : List SessionSummary
  createdAt : Instant
deriving DecidableEq, Repr

namespace AdminUserService

def toSummary (session : Session) : SessionSummary where
  id := session.id
  deviceLabel := session.deviceLabel
  ipAddress := session.ipAddress
  createdAt := session.createdAt
  lastActiveAt := session.lastActiveAt
  absoluteExpiresAt := session.absoluteExpiresAt
  revokedAt := session.revokedAt

/-- The live sessions of a user, the one active last first. -/
def activeSessions (userId : Guid) (db : Db) : List SessionSummary :=
  ((db.sessions.filter fun session => session.userId = userId && session.revokedAt = none).mergeSort
    fun left right => right.lastActiveAt ≤ left.lastActiveAt).map toSummary

def toDetail (db : Db) (user : User) (sessions : List SessionSummary) :
    AdminUserDetailResponse where
  id := user.id
  email := user.email
  emailVerified := user.emailVerified
  displayName := user.displayName
  roles := db.roleNames user.id
  lockoutEndsAt := user.lockoutEndsAt
  failedLoginCount := user.failedLoginCount
  mfaEnabled := db.totpCredentials.any fun credential =>
    credential.userId = user.id && credential.confirmedAt.isSome
  hasPassword := user.passwordHash.isSome
  linkedProviders := (db.accounts.filter (·.userId = user.id)).map (·.provider)
  activeSessions := sessions
  createdAt := user.createdAt

def getAsync (userId : Guid) : Action AdminUserDetailResponse := do
  let found ← Action.queryOrThrow fun db =>
    Action.singleOrDefault ((db.users.filter (·.id = userId)).map fun user => toDetail db user)
  let detail ← Action.orThrow (.resourceNotFound "user") found
  let sessions ← Action.query (activeSessions userId)
  return detail sessions

/-- The user as the request changes it. -/
def updated (request : AdminUpdateUserRequest) (user : User) : User :=
  let unlocked := request.unlock = some true
  { user with
    displayName := request.displayName.elim user.displayName (some ∘ trim)
    emailVerified := request.emailVerified.getD user.emailVerified
    failedLoginCount := if unlocked then 0 else user.failedLoginCount
    lockoutEndsAt := if unlocked then none else user.lockoutEndsAt }

def updateAsync (userId : Guid) (request : AdminUpdateUserRequest) :
    Action AdminUserDetailResponse := do
  let found ← Action.queryOrThrow fun db =>
    Action.singleOrDefault (db.users.filter (·.id = userId))
  let user ← Action.orThrow (.resourceNotFound "user") found
  Action.saveChanges fun savedAt db => do
    checkText 100 (updated request user).displayName
    db.updateUser savedAt user (updated request user)
  getAsync userId

def deleteAsync (http : HttpContext) (userId : Guid) : Action Unit := do
  let found ← Action.queryOrThrow fun db =>
    Action.singleOrDefault (db.users.filter (·.id = userId))
  let user ← Action.orThrow (.resourceNotFound "user") found
  let _ ← SessionService.revokeAllForUserAsync userId none .accountDeleted
  Action.saveChanges fun _ db => db.deleteUser user
  AuditLogger.logAsync http .adminUserDeleted none

end AdminUserService

namespace AdminSessionService

def revokeAllAsync (userId : Guid) : Action ℕ := do
  if !(← Action.query fun db => db.hasUser userId) then
    throw (.resourceNotFound "user")
  SessionService.revokeAllForUserAsync userId none .adminRevoked

end AdminSessionService

end AuthStartpack
