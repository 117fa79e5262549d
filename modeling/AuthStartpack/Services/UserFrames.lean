import AuthStartpack.Login.Failures
import AuthStartpack.Services.OperationFrames
import AuthStartpack.Services.Operations

/-!
Owns what the operations that save a user do apart from that save. Each keeps a
framed relation as soon as its save of the user does, so that a result about
users is left with one obligation for each kind of save.
-/

namespace AuthStartpack

variable {law : Law Input World Event} {K : State → State → Prop} {τ : Type}
variable {view : Db → τ} {counts : Event → Prop} [frames : Frames law K view counts]

/-! ### Logins -/

/-- What a login changes of a user: the lockout, and the hash of the same password. -/
structure LoginUpdate (original current : User) : Prop where
  same : current = { original with
    passwordHash := current.passwordHash
    failedLoginCount := current.failedLoginCount
    lockoutEndsAt := current.lockoutEndsAt }
  password : original.passwordHash.isSome → current.passwordHash.isSome

/-- The events of the save of a login. -/
inductive Event.OfLogin : Event → Prop
  | counted (user : User) (countedAt : Instant) : OfLogin (.loginFailureCounted user countedAt)
  | rehashed (user : User) : OfLogin (.passwordRehashed user)

namespace LoginService

section Login

variable {services : Services} {http : HttpContext}
variable (saves : ∀ original current (events : Db → List Event), LoginUpdate original current →
  (∀ db, ∀ event ∈ events db, event.OfLogin) →
  Keeps law K (Action.saveChanges (fun now db => db.updateUser now original current) events))

include frames saves

theorem rejectAsync_frame {α : Type} (user : Option User) (locked : Bool) :
    Keeps law K (rejectAsync services http user locked : Action α) := by
  have counted : ∀ found : User, Keeps law K (countFailure services http found) := by
    intro found
    apply Keeps.bind .utcNow
    intro now
    apply Keeps.bind
    · refine saves _ _ _ ?_ ?_
      · rw [LockoutPolicy.registerFailure_eq]
        exact ⟨rfl, id⟩
      · intro db event member
        split at member
        · cases member
        · rw [List.mem_singleton.mp member]
          exact .counted found now
    intro _
    exact .ite (.logAsync http _ _) (.pure _)
  unfold rejectAsync
  split
  · exact .bind (counted _) fun _ => .bind (.logAsync http _ _) fun _ => .throw _
  · exact .bind (.logAsync http _ _) fun _ => .throw _

variable (sessions : ∀ db sessions, view { db with sessions } = view db)
variable (refreshTokens : ∀ db refreshTokens, view { db with refreshTokens } = view db)

include sessions refreshTokens

theorem acceptAsync_frame (stores : StoresKept law K services .mfaChallenge) (user : User)
    (credential : Option TotpCredential)
    (password passwordHash : String) :
    Keeps law K (acceptAsync services http user credential password passwordHash) := by
  have saved : ∀ current, LoginUpdate user current → Keeps law K (Action.saveChanges
      (fun now db => db.updateUser now user current)
      fun _ => if current.passwordHash = user.passwordHash then []
        else [.passwordRehashed user]) := by
    intro current updates
    refine saves _ _ _ updates ?_
    intro db event member
    split at member
    · cases member
    · rw [List.mem_singleton.mp member]
      exact .rehashed user
  have rest : Keeps law K (if credential.any (·.confirmedAt.isSome) then do
        let ticket ← MfaTicketService.issueAsync services user.id
        AuditLogger.logAsync http .mfaChallengeIssued (some user.id)
        return LoginResult.mfaRequired { mfaTicket := ticket.value, expiresAt := ticket.expiresAt }
      else do
        let response ← AuthenticationSessionFactory.createAsync services http user.id [.password]
        AuditLogger.logAsync http .loginSucceeded (some user.id)
        return .completed response) := by
    apply Keeps.ite
    · apply Keeps.bind
      · exact stores _ _
      intro _
      exact .bind (.logAsync http _ _) fun _ => .pure _
    · apply Keeps.bind
      · exact AuthenticationSessionFactory.createAsync_frame sessions refreshTokens
          services http _ _
      intro response
      exact .bind (.logAsync http _ _) fun _ => .pure _
  unfold acceptAsync
  dsimp only
  split
  · refine .bind .draw fun salt => ?_
    rw [Program.pure_bind]
    exact .bind (saved _ ⟨rfl, fun _ => rfl⟩) fun _ => rest
  · rw [Program.pure_bind]
    exact .bind (saved _ ⟨rfl, id⟩) fun _ => rest

theorem loginAsync_frame (stores : StoresKept law K services .mfaChallenge)
    (email password : String) :
    Keeps law K (loginAsync services http email password) := by
  refine .bind (.queryOrThrow _) fun found => .bind .utcNow fun now => ?_
  split
  · exact rejectAsync_frame saves _ _
  split
  · exact rejectAsync_frame saves _ _
  · exact .ite (rejectAsync_frame saves _ _)
      (acceptAsync_frame saves sessions refreshTokens stores _ _ _ _)

omit saves in
theorem completeMfaAsync_frame
    (credentials : ∀ db totpCredentials, view { db with totpCredentials } = view db)
    (codes : ∀ db recoveryCodes, view { db with recoveryCodes } = view db)
    (consumes : ConsumesKept law K .mfaChallenge .mfaTicket)
    (silentVerified : ∀ id timeStep, ¬ counts (.totpVerified id timeStep))
    (silentUsed : ∀ row, ¬ counts (.recoveryCodeUsed row)) (mfaTicket code : String) :
    Keeps law K (completeMfaAsync services http mfaTicket code) := by
  have fails : ∀ userId, Keeps law K (mfaFailureAsync http userId : Action LoginResponse) :=
    fun _ => .bind (.logAsync http _ _) fun _ => .throw _
  have consumed : Keeps law K (MfaTicketService.consumeAsync services mfaTicket) := by
    apply Keeps.bind .utcNow
    intro now
    apply Keeps.bind (consumes _ _ _)
    intro _
    exact .ite (.pure _) (.queryOrThrow _)
  refine .bind consumed fun userId => ?_
  cases userId with
  | none => exact fails none
  | some userId =>
      refine .bind ?_ fun method => ?_
      · exact TotpService.verifyAsync_frame credentials codes silentVerified silentUsed services _ _
      cases method with
      | none => exact fails _
      | some method =>
          refine .bind ?_ fun _ => .bind (.logAsync http _ _) fun _ => .pure _
          exact AuthenticationSessionFactory.createAsync_frame sessions refreshTokens
            services http _ _

end Login

end LoginService

/-! ### Registrations -/

/-- The rows that the registration of a free address adds. -/
structure Registers (request : RegisterRequest) (user : User) (token : VerificationToken) :
    Prop where
  email : user.email = trim request.email
  unverified : user.emailVerified = false
  owner : token.userId = some user.id

namespace RegistrationService

section Registration

variable {services : Services} {http : HttpContext}
variable (stores : ∀ userId, Keeps law K (VerificationTokens.store services userId .passwordReset
  resetTokenLifetime fun token => [.verificationTokenIssued token]))
variable (silentQueued : ∀ message, ¬ counts (.emailQueued message))

include frames stores silentQueued

theorem handleExistingAsync_frame (existing : User) :
    Keeps law K (handleExistingAsync services existing) :=
  .bind (stores _) fun _ => .bind (.queueEmailReporting (silentQueued _)) fun _ => .pure _

theorem createAsync_frame {user : User} {token : VerificationToken}
    (adds : Keeps law K (Action.saveChanges (addUser services.lower user token)
      fun _ => [.userRegistered user, .verificationTokenIssued token])) (plaintext : String) :
    Keeps law K (createAsync services http user token plaintext) := by
  apply Keeps.bind
  · apply Keeps.tryCatch
    · exact .bind adds fun _ => .pure _
    intro exception
    exact .ite (.pure _) (.throw _)
  intro raced
  apply Keeps.ite
  · exact .bind (.queryOrThrow _) fun existing =>
      handleExistingAsync_frame stores silentQueued existing
  · exact .bind (.logAsync http _ _) fun _ => .bind (.queueEmailReporting (silentQueued _))
      fun _ => .pure _

theorem registerAsync_frame (silentHashed : ¬ counts .passwordHashed) {request : RegisterRequest}
    (adds : ∀ user token, Registers request user token → Keeps law K (Action.saveChanges
      (addUser services.lower user token)
        fun _ => [.userRegistered user, .verificationTokenIssued token])) :
    Keeps law K (registerAsync services http request) := by
  refine .bind (.drawReporting silentHashed) fun _ => .bind (.queryOrThrow _) fun existing => ?_
  cases existing with
  | some user => exact handleExistingAsync_frame stores silentQueued user
  | none =>
      apply Keeps.bind .draw
      intro drawn
      apply Keeps.bind .draw
      intro _
      apply Keeps.bind .draw
      intro _
      apply Keeps.bind .draw
      intro _
      apply Keeps.bind .utcNow
      intro now
      refine createAsync_frame stores silentQueued (adds _ _ ?_) _
      exact ⟨rfl, rfl, rfl⟩

end Registration

end RegistrationService

/-! ### Passwords -/

section Passwords

variable {services : Services} {http : HttpContext}
variable (saves : ∀ (original : User) hash stamp, Keeps law K (Action.saveChanges fun now db =>
  db.updateUser now original { original with passwordHash := some hash, securityStamp := stamp }))
variable (sessions : ∀ db sessions, view { db with sessions } = view db)

include frames saves sessions

theorem UserService.changePasswordAsync_frame (userId currentSessionId : Guid)
    (currentPassword newPassword : String) : Keeps law K
      (changePasswordAsync services http userId currentSessionId currentPassword newPassword) := by
  apply Keeps.bind (.queryOrThrow _)
  intro found
  apply Keeps.bind (.orThrow _ _)
  intro user
  apply Keeps.guard
  apply Keeps.bind .draw
  intro salt
  apply Keeps.bind .draw
  intro stamp
  apply Keeps.bind
  · exact SessionService.updateSessions_frame sessions _ _
  intro _
  apply Keeps.bind (saves _ _ _)
  intro _
  apply Keeps.bind
  · exact SessionService.revokeAllForUserAsync_frame sessions _ _ _
  intro _
  exact .bind (.logAsync http _ _) fun _ => .notifyAsync _ _ _

theorem PasswordResetService.confirmAsync_frame
    (consumes : ConsumesKept law K .passwordReset .passwordReset)
    (token newPassword : String) : Keeps law K (confirmAsync services http token newPassword) := by
  apply Keeps.bind .utcNow
  intro now
  apply Keeps.bind
  · exact consumes _ _ _
  intro _
  apply Keeps.guard
  apply Keeps.bind (.queryOrThrow _)
  intro user
  apply Keeps.bind (.orThrow _ _)
  intro value
  apply Keeps.bind (.queryOrThrow _)
  intro user
  apply Keeps.bind .draw
  intro salt
  apply Keeps.bind .draw
  intro stamp
  apply Keeps.bind (saves _ _ _)
  intro _
  apply Keeps.bind
  · exact SessionService.revokeAllForUserAsync_frame sessions _ _ _
  intro revoked
  apply Keeps.bind (.logAsync http _ _)
  intro _
  apply Keeps.bind (.notifyAsync _ _ _)
  intro _
  exact .ite (.logAsync http _ _) (.pure _)

end Passwords

include frames in
theorem PasswordResetService.requestAsync_frame {services : Services}
    (stores : StoresKept law K services .passwordReset) (http : HttpContext) (email : String) :
    Keeps law K (requestAsync services http email) := by
  refine .bind (.queryOrThrow _) fun found => ?_
  cases found with
  | none => exact .pure ()
  | some user =>
      exact .bind (stores _ _) fun _ => .bind (.logAsync http _ _) fun _ => .queueEmail _

/-! ### Addresses -/

section Verification

include frames

theorem EmailVerificationService.sendAsync_frame {services : Services}
    (stores : StoresKept law K services .emailVerification) (userId : Guid) :
    Keeps law K (sendAsync services userId) := by
  apply Keeps.bind (.queryOrThrow _)
  intro found
  apply Keeps.bind (.orThrow _ _)
  intro user
  apply Keeps.guard
  exact .bind (stores _ _) fun _ => .queueEmail _

theorem EmailVerificationService.confirmAsync_frame
    (consumes : ConsumesKept law K .emailVerification .emailVerification)
    (saves : ∀ original : User, Keeps law K (Action.saveChanges fun now db =>
      db.updateUser now original { original with emailVerified := true }))
    (services : Services) (http : HttpContext) (token : String) :
    Keeps law K (confirmAsync services http token) := by
  apply Keeps.bind .utcNow
  intro now
  apply Keeps.bind (consumes _ _ _)
  intro _
  apply Keeps.guard
  apply Keeps.bind (.queryOrThrow _)
  intro found
  apply Keeps.bind (.queryOrThrow _)
  intro _
  apply Keeps.bind (saves _)
  intro _
  exact .bind (.logAsync http _ _) fun _ => .pure _

end Verification

/-! ### Profiles and accounts -/

section Profiles

include frames

theorem UserService.updateProfileAsync_frame
    (saves : ∀ (original : User) displayName, Keeps law K (Action.saveChanges fun now db => do
      checkText 100 displayName
      db.updateUser now original { original with displayName }))
    (userId : Guid) (displayName : Option String) :
    Keeps law K (updateProfileAsync userId displayName) := by
  apply Keeps.bind (.queryOrThrow _)
  intro found
  apply Keeps.bind (.orThrow _ _)
  intro user
  apply Keeps.bind (saves _ _)
  intro _
  exact .bind (.queryOrThrow _) fun _ => .orThrow _ _

theorem AdminUserService.updateAsync_frame
    (saves : ∀ (original : User) request, Keeps law K (Action.saveChanges fun now db => do
      checkText 100 (updated request original).displayName
      db.updateUser now original (updated request original)))
    (userId : Guid) (request : AdminUpdateUserRequest) :
      Keeps law K (updateAsync userId request) := by
  apply Keeps.bind (.queryOrThrow _)
  intro found
  apply Keeps.bind (.orThrow _ _)
  intro user
  apply Keeps.bind (saves _ _)
  intro _
  apply Keeps.bind (.queryOrThrow _)
  intro found
  apply Keeps.bind (.orThrow _ _)
  intro value
  exact .bind (.query _) fun _ => .pure _

variable (sessions : ∀ db sessions, view { db with sessions } = view db)
variable (deletes : ∀ user, Keeps law K (Action.saveChanges fun _ db => db.deleteUser user))

include sessions

omit deletes in
theorem AdminSessionService.revokeAllAsync_frame (userId : Guid) :
    Keeps law K (revokeAllAsync userId) :=
  .bind (.query _) fun _ => .guard (SessionService.revokeAllForUserAsync_frame sessions _ _ _)

include deletes

theorem UserService.deleteAccountAsync_frame (userId : Guid) :
    Keeps law K (deleteAccountAsync userId) := by
  apply Keeps.bind (.queryOrThrow _)
  intro found
  apply Keeps.bind (.orThrow _ _)
  intro user
  exact .bind (SessionService.revokeAllForUserAsync_frame sessions _ _ _) fun _ => deletes _

theorem AdminUserService.deleteAsync_frame (http : HttpContext) (userId : Guid) :
    Keeps law K (deleteAsync http userId) := by
  apply Keeps.bind (.queryOrThrow _)
  intro found
  apply Keeps.bind (.orThrow _ _)
  intro user
  apply Keeps.bind (SessionService.revokeAllForUserAsync_frame sessions _ _ _)
  intro _
  exact .bind (deletes _) fun _ => .logAsync http _ _

end Profiles

include frames in
theorem UserService.unlinkAccountAsync_frame
    (removes : ∀ account : Account,
      Keeps law K (Action.saveChanges (fun _ db => db.deleteAccount account)
        fun db => (db.accounts.filter (·.id = account.id)).map (.accountRemoved · true)))
    (userId accountId : Guid) : Keeps law K (unlinkAccountAsync userId accountId) := by
  apply Keeps.bind (.queryOrThrow _)
  intro found
  apply Keeps.bind (.orThrow _ _)
  intro account
  apply Keeps.bind (.query _)
  intro alternative
  -- the check lets nobody pass without another way to sign in
  cases alternative with
  | false => exact .throw _
  | true => exact .bind (removes account) fun _ => .notifyAsync _ _ _

end AuthStartpack
