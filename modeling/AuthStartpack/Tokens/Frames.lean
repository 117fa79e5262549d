import AuthStartpack.SocialAuth.Completion
import AuthStartpack.Tokens.Consumption

/-!
Owns what the operations do to the verification tokens: some add one, of their
own type, and the others at most consume or delete some. A relation that looks at
no other table is kept by an operation as soon as these few statements keep it.
-/

namespace AuthStartpack

variable {law : Law Input World Event} {K : State → State → Prop}

section SignUps

variable {σ : Type} {look : Db → σ} {reported : Event → Prop} [framed : Frames law K look reported]

include framed in
/-- The user of a new identity, for a view of other tables. -/
theorem SocialAuthService.createUserAsync_frame
    (rows : ∀ db users userRoles accounts, look { db with users, userRoles, accounts } = look db)
    (silent : ∀ user account lookups, ¬ reported (.socialSignUp user account lookups))
    (services : Services) (linked : Option Guid) (name : String) (identity : SocialIdentity) :
    Keeps law K (createUserAsync services linked name identity) := by
  apply Keeps.bind
  · exact .ite (.pure _) (.query _)
  intro _
  apply Keeps.bind .draw
  intro drawn
  apply Keeps.bind .draw
  intro _
  apply Keeps.bind .draw
  intro _
  apply Keeps.bind
  · refine .frame_atomically ?_ ?_ ?_
    · intro input world
      dsimp only
      split
      case h_1 db saved =>
        obtain ⟨-, -, -, equal⟩ := addLinkedUser_eq_ok saved
        rw [equal]
        exact rows _ _ _ _
      case h_2 => rfl
    · intro input world
      dsimp only
      split <;> exact Nat.le_refl _
    · intro input world event member
      dsimp only at member
      split at member <;> exact List.mem_singleton.mp member ▸ silent _ _ _
  intro _
  exact .pure _

end SignUps

def Event.isRegistration : Event → Bool
  | .userRegistered _ => true
  | _ => false

/-- The operations that add a verification token. -/
def ServiceOperation.issues : ServiceOperation → Bool
  | register .. | login .. | sendVerification .. | requestReset .. | socialAuthorize .. |
    passkeyRegistrationOptions .. | passkeyAuthenticationOptions => true
  | _ => false

/-- A view of tables other than those of sessions, second factors, passkeys and audits. -/
structure LooksAside {σ : Type} (look : Db → σ) : Prop where
  sessions : ∀ db sessions, look { db with sessions } = look db
  refreshTokens : ∀ db refreshTokens, look { db with refreshTokens } = look db
  totpCredentials : ∀ db totpCredentials, look { db with totpCredentials } = look db
  recoveryCodes : ∀ db recoveryCodes, look { db with recoveryCodes } = look db
  passkeyCredentials : ∀ db passkeyCredentials, look { db with passkeyCredentials } = look db
  auditLogEntries : ∀ db auditLogEntries, look { db with auditLogEntries } = look db

/-- The statements on users, accounts and tokens that add no token stay within `K`. -/
structure KeepsOthers (law : Law Input World Event) (K : State → State → Prop)
    (services : Services) :
    Prop where
  consumes : ∀ type consumer, ConsumesKept law K type consumer
  cleans : ∀ now, Keeps law K
    (ExpiredAuthArtifactCleanupService.deleteVerificationTokensAsync services now)
  deletes : ∀ user, Keeps law K (Action.saveChanges fun _ db => db.deleteUser user)
  updates : ∀ {original current : User}, current.email = original.email →
    Keeps law K (Action.saveChanges fun now db => db.updateUser now original current)
  checks : ∀ {original current : User} {text : Option String}, current.email = original.email →
    Keeps law K (Action.saveChanges fun now db => do
      checkText 100 text
      db.updateUser now original current)
  unlinks : ∀ account : Account,
    Keeps law K (Action.saveChanges (fun _ db => db.deleteAccount account)
    fun db => (db.accounts.filter (·.id = account.id)).map (.accountRemoved · true))
  creates : ∀ linked name identity,
    Keeps law K (SocialAuthService.createUserAsync services linked name identity)

section Others

variable {σ : Type} {look : Db → σ} {reported : Event → Prop} [framed : Frames law K look reported]
variable {services : Services} {fido2 : Fido2}

include framed

/-- The operations that add no token. -/
theorem ServiceOperation.keeps_others (aside : LooksAside look)
    (silent : ∀ event : Event, event.consumption? = none → event.isRegistration = false →
      ¬ reported event)
    (others : KeepsOthers law K services) (op : ServiceOperation) (other : op.issues = false) :
    Keeps law K (op.program services fido2) := by
  have rotation : ∀ event : Event, event.OfRotation → ¬ reported event := by
    rintro event (_ | _ | _ | _) <;> exact silent _ rfl rfl
  cases op with
  | completeMfa http mfaTicket code =>
      refine .bind ?_ fun _ => .pure _
      exact LoginService.completeMfaAsync_frame aside.sessions aside.refreshTokens
        aside.totpCredentials
        aside.recoveryCodes (others.consumes _ _) (fun _ _ => silent _ rfl rfl)
          (fun _ => silent _ rfl rfl)
        mfaTicket code
  | refresh http cookieToken bodyToken =>
      refine .bind ?_ fun _ => .pure _
      exact RefreshTokenService.refreshAsync_frame aside.sessions aside.refreshTokens
        rotation services
        http cookieToken bodyToken
  | logout http userId sessionId =>
      exact LogoutService.logoutAsync_frame aside.sessions aside.refreshTokens http userId sessionId
  | confirmEmail http token =>
      refine .bind ?_ fun _ => .pure _
      exact EmailVerificationService.confirmAsync_frame (others.consumes _ _)
        (fun _ => others.updates rfl) services
        http token
  | confirmReset http token newPassword =>
      exact PasswordResetService.confirmAsync_frame (fun _ _ _ => others.updates rfl) aside.sessions
        (others.consumes _ _) token newPassword
  | updateProfile userId displayName =>
      refine .bind ?_ fun _ => .pure _
      exact UserService.updateProfileAsync_frame (fun _ _ => others.checks rfl) userId displayName
  | changePassword http userId currentSessionId currentPassword newPassword =>
      exact UserService.changePasswordAsync_frame
        (fun _ _ _ => others.updates rfl) aside.sessions userId
        currentSessionId currentPassword newPassword
  | deleteAccount userId =>
      exact UserService.deleteAccountAsync_frame aside.sessions others.deletes userId
  | unlink userId accountId =>
      exact UserService.unlinkAccountAsync_frame others.unlinks userId accountId
  | socialCallback host http answers provider query =>
      refine .bind ?_ fun _ => .pure _
      exact SocialAuthService.callbackAsync_frame aside.sessions aside.refreshTokens
        (others.consumes _ _)
        services others.creates host http answers provider query
  | passkeyRegistration userId request label =>
      refine .bind ?_ fun _ => .pure _
      exact PasskeyService.completeRegistrationAsync_frame aside.passkeyCredentials
        (others.consumes _ _) services
        fido2 request label
  | passkeyRemoval userId credentialId =>
      exact PasskeyService.removeAsync_frame aside.passkeyCredentials
        (fun _ => silent _ rfl rfl) userId credentialId
  | passkeyAuthentication http request =>
      refine .bind ?_ fun _ => .pure _
      exact PasskeyService.completeAuthenticationAsync_frame aside.passkeyCredentials aside.sessions
        aside.refreshTokens (others.consumes _ _)
          (fun _ _ => silent _ rfl rfl) services fido2 http request
  | enrollTotp userId =>
      refine .bind ?_ fun _ => .pure _
      exact TotpService.enrollAsync_frame aside.totpCredentials
        (fun _ => silent _ rfl rfl) services userId
  | confirmTotp userId code =>
      refine .bind ?_ fun _ => .pure _
      exact TotpService.confirmAsync_frame aside.totpCredentials aside.recoveryCodes
        (fun _ _ _ => silent _ rfl rfl)
        services userId code
  | disableTotp http userId =>
      exact TotpService.disableAsync_frame aside.totpCredentials aside.recoveryCodes
        aside.sessions http userId
  | regenerateRecoveryCodes userId =>
      refine .bind ?_ fun _ => .pure _
      exact TotpService.regenerateRecoveryCodesAsync_frame aside.recoveryCodes services userId
  | revokeSession http userId sessionId =>
      exact SessionQueryService.revokeAsync_frame aside.sessions aside.refreshTokens http
        userId sessionId
  | revokeOtherSessions http userId currentSessionId =>
      refine .bind ?_ fun _ => .pure _
      exact SessionQueryService.revokeAllOthersAsync_frame aside.sessions
        aside.refreshTokens http userId
        currentSessionId
  | adminUpdate userId request =>
      refine .bind ?_ fun _ => .pure _
      exact AdminUserService.updateAsync_frame (fun _ _ => others.checks rfl) userId request
  | adminDelete http userId =>
      exact AdminUserService.deleteAsync_frame aside.sessions others.deletes http userId
  | adminRevokeSessions userId =>
      refine .bind ?_ fun _ => .pure _
      exact AdminSessionService.revokeAllAsync_frame aside.sessions userId
  | cleanup =>
      exact ExpiredAuthArtifactCleanupService.cleanupOnceAsync_frame aside.sessions
        aside.refreshTokens
        aside.auditLogEntries others.cleans
  | _ => cases other

end Others

variable {counts : Event → Prop}
variable [frames : Frames law K Db.verificationTokens counts]
variable {services : Services} {fido2 : Fido2}

/-- The statements that take tokens away stay within `K`. -/
structure TakesTokens (law : Law Input World Event) (K : State → State → Prop)
    (services : Services) :
    Prop where
  consumes : ∀ type consumer, ConsumesKept law K type consumer
  cleans : ∀ now, Keeps law K
    (ExpiredAuthArtifactCleanupService.deleteVerificationTokensAsync services now)
  deletes : ∀ user, Keeps law K (Action.saveChanges fun _ db => db.deleteUser user)

/-- The statements that add tokens other than tickets stay within `K`. -/
structure AddsTokens (law : Law Input World Event) (K : State → State → Prop)
    (services : Services) :
    Prop where
  stores : ∀ (userId : Option Guid) (type : VerificationTokenType) (lifetime : Duration)
    (report : VerificationToken → List Event), type ≠ .mfaChallenge →
    (∀ token, ∀ event ∈ report token, event.consumption? = none) →
    Keeps law K (VerificationTokens.store services userId type lifetime report)
  registers : ∀ (user : User) (token : VerificationToken), token.type ≠ .mfaChallenge →
    (∃ number, token.tokenHash =
      services.tokenGenerator.hash (services.tokenGenerator.newOpaqueToken number)) →
    Keeps law K (Action.saveChanges (RegistrationService.addUser services.lower user token)
      fun _ => [.userRegistered user, .verificationTokenIssued token])

section Users

include frames

theorem updateUser_tokens {original current : User} {events : Db → List Event}
    (silent : ∀ db, ∀ event ∈ events db, ¬ counts event) :
    Keeps law K (Action.saveChanges (fun now db => db.updateUser now original current) events) := by
  refine .frame_reporting ?_ silent
  intro now db after saved
  obtain ⟨users, rfl⟩ := Db.updateUser_ok saved
  rfl

theorem checkedUser_tokens {original current : User} {text : Option String} :
    Keeps law K (Action.saveChanges fun now db => do
      checkText 100 text
      db.updateUser now original current) := by
  refine .frame_saveChanges ?_
  intro now db after saved
  obtain ⟨-, -, saved⟩ := bind_eq_ok.mp saved
  obtain ⟨users, rfl⟩ := Db.updateUser_ok saved
  rfl

end Users

include frames

/-- The operations that add no token. -/
theorem ServiceOperation.keeps_taking (silent : ∀ event, event.consumption? = none → ¬ counts event)
    (takes : TakesTokens law K services) (op : ServiceOperation) (other : op.issues = false) :
    Keeps law K (op.program services fido2) := by
  refine op.keeps_others ?_ (fun _ unconsumed _ => silent _ unconsumed) ?_ other
  · constructor <;> exact fun _ _ => rfl
  · refine ⟨takes.consumes, takes.cleans, takes.deletes, ?_, ?_, ?_, ?_⟩
    · exact fun _ => updateUser_tokens fun _ _ member => by cases member
    · exact fun _ => checkedUser_tokens
    · intro account
      refine .frame_reporting ?_ ?_
      · intro now db after saved
        rw [Db.deleteAccount_ok saved]
      · intro db event member
        obtain ⟨_, -, rfl⟩ := List.mem_map.mp member
        exact silent _ rfl
    · exact SocialAuthService.createUserAsync_frame (fun _ _ _ _ => rfl) (fun _ _ _ => silent _ rfl)
        services

/-- The operations that add a token other than a ticket. -/
theorem ServiceOperation.keeps_adding (silent : ∀ event, event.consumption? = none → ¬ counts event)
    (adds : AddsTokens law K services) (op : ServiceOperation) (issuing : op.issues = true)
    (other : ∀ http email password, op ≠ .login http email password) :
    Keeps law K (op.program services fido2) := by
  have stores : ∀ {type : VerificationTokenType}, type ≠ .mfaChallenge →
      StoresKept law K services type :=
    fun differs _ _ => adds.stores _ _ _ _ differs fun _ _ member => by cases member
  cases op with
  | login http email password => exact absurd rfl (other http email password)
  | register http request =>
      have resets : ∀ userId, Keeps law K (VerificationTokens.store services userId .passwordReset
          RegistrationService.resetTokenLifetime fun token => [.verificationTokenIssued token]) :=
        fun _ => adds.stores _ _ _ _ (by decide) fun _ _ member =>
          List.mem_singleton.mp member ▸ rfl
      refine .bind ?_ fun _ => .pure _
      refine .bind (.drawReporting (silent _ rfl))
        fun _ => .bind (.queryOrThrow _) fun existing => ?_
      cases existing with
      | some user =>
          exact RegistrationService.handleExistingAsync_frame resets (fun _ => silent _ rfl) user
      | none =>
          apply Keeps.bind .draw
          intro drawn
          apply Keeps.bind .draw
          intro _
          apply Keeps.bind .draw
          intro number
          apply Keeps.bind .draw
          intro _
          apply Keeps.bind .utcNow
          intro now
          refine RegistrationService.createAsync_frame resets (fun _ => silent _ rfl) ?_ _
          exact adds.registers _ _ (by rintro ⟨⟩) ⟨number, rfl⟩
  | sendVerification userId =>
      exact EmailVerificationService.sendAsync_frame (stores (by decide)) userId
  | requestReset http email =>
      exact PasswordResetService.requestAsync_frame (stores (by decide)) http email
  | socialAuthorize host provider =>
      refine .bind ?_ fun _ => .pure _
      exact SocialAuthService.authorizeAsync_frame (stores (by decide)) host provider
  | passkeyRegistrationOptions userId =>
      refine .bind ?_ fun _ => .pure _
      exact PasskeyService.registrationOptionsAsync_frame (stores (by decide)) userId
  | passkeyAuthenticationOptions =>
      refine .bind ?_ fun _ => .pure _
      exact PasskeyService.authenticationOptionsAsync_frame (stores (by decide))
  | _ => cases issuing

end AuthStartpack
