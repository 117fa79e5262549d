import AuthStartpack.Services.Auth.AuthenticationSessionFactory
import AuthStartpack.Services.Mfa.TotpService
import AuthStartpack.Services.Security.LockoutPolicy
import AuthStartpack.Services.Tokens.MfaTicketService

/-!
Owns `LoginService`: the sign-in with a password, which ends in a session, in a
ticket for the second factor or in a counted failure, and its completion with
the second factor.
-/

namespace AuthStartpack

structure MfaChallengeResponse where
  mfaTicket : String
  expiresAt : Instant
  acceptedMethods : List String := ["totp", "recovery"]
deriving DecidableEq, Repr

inductive LoginResult
  | mfaRequired (challenge : MfaChallengeResponse)
  | completed (response : LoginResponse)
deriving DecidableEq, Repr

namespace LoginService

variable (services : Services) (http : HttpContext)

/-- The user with this address, with its credential (`Include`). -/
def withEmail (email : String) (db : Db) : List (User × Option TotpCredential) :=
  (db.users.filter (sameEmail services.lower ·.email email)).map fun user =>
    (user, db.totpCredentials.find? (·.userId = user.id))

/-- Count a failure of this user. -/
def countFailure (user : User) : Action Unit := do
  let now ← Action.utcNow
  let failure := LockoutPolicy.registerFailure services.lockoutOptions now user
  Action.saveChanges (fun savedAt db => db.updateUser savedAt user failure.1)
    fun _ => if failure.1 = user then [] else [.loginFailureCounted user now]
  if failure.2 then
    AuditLogger.logAsync http .accountLocked (some user.id)

/-- `RejectAsync`, which always throws. -/
def rejectAsync {α : Type} (user : Option User) (alreadyLocked : Bool) : Action α := do
  match user, alreadyLocked with
  | some user, false => countFailure services http user
  | _, _ => pure ()
  AuditLogger.logAsync http .loginFailed (user.map (·.id))
  throw .invalidCredentials

/-- The sign-in of a user whose password was accepted. -/
def acceptAsync (user : User) (credential : Option TotpCredential)
    (password passwordHash : String) : Action LoginResult := do
  let cleared := LockoutPolicy.registerSuccess user
  let current ←
    if services.passwordHasher.needsRehash passwordHash then do
      let salt ← Action.draw
      pure { cleared with passwordHash := some (services.passwordHasher.hash password salt) }
    else pure cleared
  Action.saveChanges (fun savedAt db => db.updateUser savedAt user current)
    fun _ => if current.passwordHash = user.passwordHash then [] else [.passwordRehashed user]
  if credential.any (·.confirmedAt.isSome) then
    let ticket ← MfaTicketService.issueAsync services user.id
    AuditLogger.logAsync http .mfaChallengeIssued (some user.id)
    return .mfaRequired { mfaTicket := ticket.value, expiresAt := ticket.expiresAt }
  else
    let response ← AuthenticationSessionFactory.createAsync services http user.id [.password]
    AuditLogger.logAsync http .loginSucceeded (some user.id)
    return .completed response

def loginAsync (email password : String) : Action LoginResult := do
  let found ← Action.queryOrThrow
    fun db => Action.singleOrDefault (withEmail services (trim email) db)
  let now ← Action.utcNow
  let user := found.map (·.1)
  let locked := user.any (LockoutPolicy.isLockedOut services.lockoutOptions now)
  let hash := (user.bind (·.passwordHash)).getD services.dummyPasswordHash
  let verified := services.passwordHasher.verify password hash
  match found with
  | none => rejectAsync services http none locked
  | some (user, credential) =>
      match user.passwordHash with
      | none => rejectAsync services http (some user) locked
      | some passwordHash =>
          if !verified || locked || !user.emailVerified then
            rejectAsync services http (some user) locked
          else acceptAsync services http user credential password passwordHash

/-- `MfaFailureAsync`, which always throws. -/
def mfaFailureAsync {α : Type} (userId : Option Guid) : Action α := do
  AuditLogger.logAsync http .mfaFailed userId
  throw .invalidToken

def completeMfaAsync (mfaTicket code : String) : Action LoginResponse := do
  match ← MfaTicketService.consumeAsync services mfaTicket with
  | none => mfaFailureAsync http none
  | some userId =>
      match ← TotpService.verifyAsync services userId code with
      | none => mfaFailureAsync http (some userId)
      | some method =>
          let response ←
            AuthenticationSessionFactory.createAsync services http userId [.password, method]
          AuditLogger.logAsync http .loginSucceeded (some userId)
          return response

end LoginService

end AuthStartpack
