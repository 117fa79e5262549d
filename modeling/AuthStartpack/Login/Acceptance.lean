import AuthStartpack.Services.Auth.LoginService

/-!
Owns the two parts of a login whose password was accepted: the save of the user,
and what follows from the authenticator that was read with the user.
-/

namespace AuthStartpack

namespace LoginService

variable {services : Services} {http : HttpContext}

/-- The user as a login with an accepted password saves it. -/
def clearedAsync (services : Services) (user : User) (password passwordHash : String) :
    Action User :=
  if services.passwordHasher.needsRehash passwordHash then do
    let salt ← Action.draw
    return { LockoutPolicy.registerSuccess user with
      passwordHash := some (services.passwordHasher.hash password salt) }
  else return LockoutPolicy.registerSuccess user

/-- How the login goes on after the save. -/
def proceedAsync (services : Services) (http : HttpContext) (user : User)
    (credential : Option TotpCredential) : Action LoginResult :=
  if credential.any (·.confirmedAt.isSome) then do
    let ticket ← MfaTicketService.issueAsync services user.id
    AuditLogger.logAsync http .mfaChallengeIssued (some user.id)
    return .mfaRequired { mfaTicket := ticket.value, expiresAt := ticket.expiresAt }
  else do
    let response ← AuthenticationSessionFactory.createAsync services http user.id [.password]
    AuditLogger.logAsync http .loginSucceeded (some user.id)
    return .completed response

theorem acceptAsync_eq (user : User) (credential : Option TotpCredential)
    (password passwordHash : String) :
    acceptAsync services http user credential password passwordHash =
      clearedAsync services user password passwordHash >>= fun current =>
        Action.saveChanges (fun savedAt db => db.updateUser savedAt user current)
          (fun _ => if current.passwordHash = user.passwordHash then []
            else [.passwordRehashed user])
            >>= fun _ => proceedAsync services http user credential := by
  unfold acceptAsync clearedAsync
  dsimp only
  by_cases needs : services.passwordHasher.needsRehash passwordHash = true
  · rw [if_pos needs, if_pos needs]
    rfl
  · rw [if_neg needs, if_neg needs]
    rfl

end LoginService

end AuthStartpack
