import AuthStartpack.Services.Auth.RefreshService
import AuthStartpack.Services.Cleanup
import AuthStartpack.Services.Frames
import AuthStartpack.Services.Passkeys.PasskeyService
import AuthStartpack.Services.Sessions.SessionQueryService
import AuthStartpack.Services.SocialAuth.SocialAuthService

/-!
Owns what whole operations leave alone: the rotation of a refresh token, the
operations on sessions, the second factor, passkeys, and the cleanup. Each keeps
every framed relation whose view looks at none of the tables that it writes.
-/

namespace AuthStartpack

variable {law : Law Input World Event} {K : State → State → Prop} {τ : Type}
variable {view : Db → τ} {counts : Event → Prop} [frames : Frames law K view counts]

/-- Retried delegates. -/
theorem Keeps.executionStrategy [∀ call, Calm law call K] {μ α : Type}
    {delegate : μ → Action (Attempt μ α)} (each : ∀ tracked, Keeps law K (delegate tracked))
    (retries : ℕ) (tracked : μ) :
    Keeps law K (Action.executionStrategy delegate retries tracked) := by
  induction retries generalizing tracked with
  | zero =>
      refine .bind (each tracked) fun attempt => ?_
      cases attempt with
      | completed result => exact .pure result
      | failed kept => exact .throw _
  | succ retries inductionHypothesis =>
      refine .bind (each tracked) fun attempt => ?_
      cases attempt with
      | completed result => exact .pure result
      | failed kept => exact inductionHypothesis kept

/-! ### Rotations -/

/-- What a save of tracked sessions and refresh tokens leaves alone. -/
theorem ChangeTracker.changes_frame (sessions : ∀ db sessions, view { db with sessions } = view db)
    (tokens : ∀ db refreshTokens, view { db with refreshTokens } = view db)
    {tracker : ChangeTracker} {now : Instant} {db after : Db}
    (saved : tracker.changes now db = .ok after) : view after = view db := by
  obtain ⟨middle, sessionsSaved, tokensSaved⟩ := bind_eq_ok.mp saved
  have sessionsLeft : view middle = view db := by
    refine @foldlM_relates _ _ _ (fun before after : Db => view after = view before)
      (fun _ => rfl) (fun early late => late.trans early) _ _ ?_ _ _ sessionsSaved
    intro entry _ before after statement
    unfold saveSession at statement
    split at statement
    · rw [(Db.insertSession_eq_ok.mp statement).2, sessions]
    · rw [(Db.updateSession_eq_ok.mp statement).2, sessions]
  refine Eq.trans ?_ sessionsLeft
  refine @foldlM_relates _ _ _ (fun before after : Db => view after = view before)
    (fun _ => rfl) (fun early late => late.trans early) _ _ ?_ _ _ tokensSaved
  intro entry _ before after statement
  unfold saveToken at statement
  split at statement
  · rw [(Db.insertRefreshToken_eq_ok.mp statement).2, tokens]
  · rw [(Db.updateRefreshToken_eq_ok.mp statement).2, tokens]

/-- The events of a rotation. -/
inductive Event.OfRotation : Event → Prop
  | saveFailed : OfRotation .saveFailed
  | commitFailed (attemptedAt : Instant) : OfRotation (.commitFailed attemptedAt)
  | reuseCommitted (revokedAt : Instant) : OfRotation (.reuseCommitted revokedAt)
  | refreshTokenSpent (token : RefreshToken) : OfRotation (.refreshTokenSpent token)

namespace RefreshTokenService

section Rotation

variable (sessions : ∀ db sessions, view { db with sessions } = view db)
variable (tokens : ∀ db refreshTokens, view { db with refreshTokens } = view db)
variable (silent : ∀ event, event.OfRotation → ¬ counts event)

include frames sessions tokens silent

theorem saveAndCommit_frame (tracker : ChangeTracker) (now : Instant) {event : Event}
    (reports : event.OfRotation) {report : Action RefreshResult} (keeps : Keeps law K report) :
    Keeps law K (saveAndCommit tracker now event report) := by
  have stages : Keeps law K Action.stageChanges := by
    refine .frame_atomically ?_ ?_ ?_
    · intro input world
      split <;> rfl
    · intro input world
      split <;> exact Nat.le_refl _
    · intro input world event member
      split at member
      · exact List.mem_singleton.mp member ▸ silent _ .saveFailed
      · cases member
  have commits : ∀ savedAt, Keeps law K (Action.commit (tracker.changes savedAt) now [event]) := by
    intro savedAt
    refine .frame_atomically ?_ ?_ ?_
    · intro input world
      split
      · rfl
      split
      · exact ChangeTracker.changes_frame sessions tokens ‹_›
      · rfl
    · intro input world
      split
      · exact Nat.le_refl _
      split <;> exact Nat.le_refl _
    · intro input world reported member
      split at member
      · exact List.mem_singleton.mp member ▸ silent _ (.commitFailed now)
      split at member
      · exact List.mem_singleton.mp member ▸ silent _ reports
      · cases member
  refine .bind stages fun savedAt => ?_
  cases savedAt with
  | none => exact .pure _
  | some savedAt =>
      exact .bind (commits savedAt) fun _ => .ite (.bind keeps fun _ => .pure _) (.pure _)

theorem rotate_frame (services : Services) (http : HttpContext) (tracker : ChangeTracker)
    (stored : RefreshToken) (session : Session) (now : Instant) :
    Keeps law K (rotate services http tracker stored session now) := by
  apply Keeps.bind
  · apply Keeps.bind .draw
    intro drawn
    exact .bind .draw fun _ => .pure _
  intro _
  apply Keeps.bind (.query _)
  intro roles
  apply Keeps.bind (.queryOrThrow _)
  intro user
  apply Keeps.bind (.accessToken services _)
  intro accessToken
  exact saveAndCommit_frame sessions tokens silent _ _ (.refreshTokenSpent _)
    (.bind (.logAsync http _ _) fun _ => .pure _)

theorem judge_frame (services : Services) (http : HttpContext) (tracker : ChangeTracker)
    (stored : RefreshToken) (session : Session) (now : Instant) :
    Keeps law K (judge services http tracker stored session now) := by
  apply Keeps.ite
  · exact saveAndCommit_frame sessions tokens silent _ _ (.reuseCommitted _)
      (.bind (.logAsync http _ _) fun _ => .pure _)
  · apply Keeps.ite (.pure _)
    apply Keeps.ite (.pure _)
    apply Keeps.ite (.pure _)
    apply Keeps.ite (.pure _)
    exact .bind (.queryOrThrow _) fun _ => .ite (.pure _)
      (rotate_frame sessions tokens silent services http _ _ _ _)

theorem rotateAsync_frame (services : Services) (http : HttpContext) (presentedToken : String) :
    Keeps law K (rotateAsync services http presentedToken) := by
  refine .executionStrategy (fun tracker => .bind (.queryOrThrow _) fun found => ?_) _ _
  match found with
  | none => exact .pure _
  | some (token, session) =>
      exact .bind .utcNow fun _ => judge_frame sessions tokens silent services http _ _ _ _

theorem refreshAsync_frame (services : Services) (http : HttpContext)
    (cookieToken bodyToken : Option String) :
    Keeps law K (RefreshService.refreshAsync services http cookieToken bodyToken) := by
  unfold RefreshService.refreshAsync
  split
  · exact .throw _
  refine .ite (.throw _)
    (.bind (rotateAsync_frame sessions tokens silent services http _) fun result => ?_)
  split
  · exact .throw _
  · exact .pure _
  · exact .throw _

end Rotation

end RefreshTokenService

/-! ### Sessions -/

section Sessions

variable (sessions : ∀ db sessions, view { db with sessions } = view db)
variable (tokens : ∀ db refreshTokens, view { db with refreshTokens } = view db)

include frames

include tokens in
theorem RefreshTokenService.revokeForSessionAsync_frame (sessionId : Guid) :
    Keeps law K (revokeForSessionAsync sessionId) :=
  .bind .utcNow
    fun _ => .bind (.frame_execute (fun _ => tokens _ _) fun _ _ member => nomatch member)
    fun _ => .pure _

include sessions in
theorem SessionService.revokeAsync_frame (sessionId : Guid) (reason : SessionRevocationReason) :
    Keeps law K (revokeAsync sessionId reason) :=
  .bind .utcNow fun _ => .bind (updateSessions_frame sessions _ _) fun _ => .pure _

include sessions tokens

theorem SessionQueryService.revokeAsync_frame (http : HttpContext) (userId sessionId : Guid) :
    Keeps law K (revokeAsync http userId sessionId) := by
  apply Keeps.bind (.query _)
  intro found
  apply Keeps.guard
  apply Keeps.bind (SessionService.revokeAsync_frame sessions _ _)
  intro _
  exact .bind (RefreshTokenService.revokeForSessionAsync_frame tokens _) fun _ => .logAsync http _ _

theorem SessionQueryService.revokeAllOthersAsync_frame (http : HttpContext)
    (userId currentSessionId : Guid) :
    Keeps law K (revokeAllOthersAsync http userId currentSessionId) := by
  refine .bind (.query _) fun _ => .bind ?_ fun _ => ?_
  · exact SessionService.revokeAllForUserAsync_frame sessions _ _ _
  · apply Keeps.ite
    · apply Keeps.bind .utcNow
      intro now
      apply Keeps.bind
      · exact .frame_execute (fun _ => tokens _ _) fun _ _ member => nomatch member
      intro _
      exact .bind (.logAsync http _ _) fun _ => .pure _
    · exact .pure _

theorem LogoutService.logoutAsync_frame (http : HttpContext) (userId sessionId : Guid) :
    Keeps law K (logoutAsync http userId sessionId) :=
  .bind (SessionService.revokeAsync_frame sessions _ _) fun _ =>
    .bind (RefreshTokenService.revokeForSessionAsync_frame tokens _) fun _ => .logAsync http _ _

end Sessions

/-! ### The second factor -/

namespace TotpService

section Totp

variable (credentials : ∀ db totpCredentials, view { db with totpCredentials } = view db)
variable (codes : ∀ db recoveryCodes, view { db with recoveryCodes } = view db)

include frames

theorem matchTotp_frame (services : Services) (credential : TotpCredential) (code : String) :
    Keeps law K (matchTotp services credential code) :=
  .bind (.orThrow _ _) fun _ => .bind .utcNow fun _ => .pure _

theorem newCodes_frame (services : Services) (count : ℕ) :
    Keeps law K (newCodes services count) := by
  induction count with
  | zero => exact .pure _
  | succ count inductionHypothesis =>
      exact .bind .draw fun _ => .bind inductionHypothesis fun _ => .pure _

theorem newRecoveryCodes_frame (services : Services) (userId : Guid) (plaintext : List String) :
    Keeps law K (newRecoveryCodes services userId plaintext) := by
  induction plaintext with
  | nil => exact .pure _
  | cons code rest inductionHypothesis =>
      apply Keeps.bind .draw
      intro id
      apply Keeps.bind .draw
      intro salt
      exact .bind inductionHypothesis fun _ => .pure _

include codes in
theorem replaceRecoveryCodesAsync_frame (services : Services) (userId : Guid)
    {pending : Instant → Db → Except AppException Db} {events : Db → List Event}
    (leaves : ∀ now db after, pending now db = .ok after → view after = view db)
    (silent : ∀ db, ∀ event ∈ events db, ¬ counts event) :
    Keeps law K (replaceRecoveryCodesAsync services userId pending events) := by
  apply Keeps.bind
  · exact .frame_execute (fun _ => codes _ _) fun _ _ member => nomatch member
  intro _
  apply Keeps.bind (newCodes_frame services _)
  intro plaintext
  apply Keeps.bind (newRecoveryCodes_frame services _ _)
  intro rows
  apply Keeps.bind .utcNow
  intro generatedAt
  apply Keeps.bind
  · refine .frame_reporting ?_ silent
    intro now db after saved
    obtain ⟨middle, pendingSaved, inserted⟩ := bind_eq_ok.mp saved
    refine Eq.trans ?_ (leaves _ _ _ pendingSaved)
    refine @foldlM_relates _ _ _ (fun before after : Db => view after = view before)
      (fun _ => rfl) (fun early late => late.trans early) _ _ ?_ _ _ inserted
    intro row _ before after statement
    obtain ⟨recoveryCodes, -, equal⟩ := bind_eq_ok.mp statement
    rw [pure_eq_ok.mp equal, codes]
  intro _
  exact .pure _

include credentials in
theorem enrollAsync_frame (silent : ∀ credential, ¬ counts (.totpSecretReplaced credential))
    (services : Services)
    (userId : Guid) : Keeps law K (enrollAsync services userId) := by
  apply Keeps.bind (.queryOrThrow _)
  intro found
  apply Keeps.bind (.orThrow _ _)
  intro user
  apply Keeps.guard
  apply Keeps.bind .draw
  intro id
  apply Keeps.bind .draw
  intro drawn
  split
  · refine .bind .draw fun _ => .bind (.frame_saveChanges ?_) fun _ => .pure _
    intro now db after saved
    obtain ⟨-, rfl⟩ := Db.insertTotpCredential_eq_ok.mp saved
    exact credentials _ _
  · refine .bind (.frame_reporting ?_ ?_) fun _ => .pure _
    · intro now db after saved
      obtain ⟨-, rfl⟩ := Db.updateTotpCredential_eq_ok.mp saved
      exact credentials _ _
    · intro db event member
      exact List.mem_singleton.mp member ▸ silent _

include credentials codes

theorem confirmAsync_frame (silent : ∀ credential code timeStep,
      ¬ counts (.totpConfirmed credential code timeStep)) (services : Services) (userId : Guid)
    (code : String) : Keeps law K (confirmAsync services userId code) := by
  apply Keeps.bind (.queryOrThrow _)
  intro found
  apply Keeps.bind (.orThrow _ _)
  intro credential
  apply Keeps.bind (matchTotp_frame services _ _)
  intro _
  apply Keeps.bind (.orThrow _ _)
  intro matchedTimeStep
  apply Keeps.bind .utcNow
  intro confirmedAt
  apply Keeps.bind
  · refine replaceRecoveryCodesAsync_frame codes services _ ?_ ?_
    · intro now db after saved
      obtain ⟨-, rfl⟩ := Db.updateTotpCredential_eq_ok.mp saved
      exact credentials _ _
    · intro db event member
      exact List.mem_singleton.mp member ▸ silent _ _ _
  intro recoveryCodes
  exact .bind (.notifyAsync _ _ _) fun _ => .pure _

theorem verifyAsync_frame (silentVerified : ∀ id timeStep, ¬ counts (.totpVerified id timeStep))
    (silentUsed : ∀ row, ¬ counts (.recoveryCodeUsed row)) (services : Services) (userId : Guid)
    (code : String) : Keeps law K (verifyAsync services userId code) := by
  refine .bind (.queryOrThrow _) fun found => ?_
  split
  · exact .pure _
  refine .bind (matchTotp_frame services _ _) fun matched => ?_
  split
  · refine .bind .utcNow fun _ => .bind (.frame_execute (fun _ => credentials _ _) ?_)
      fun _ => .pure _
    intro db event member
    split at member
    · exact List.mem_singleton.mp member ▸ silentVerified _ _
    · cases member
  · refine .bind (.query _) fun recoveryCodes => ?_
    split
    · exact .pure _
    refine .bind .utcNow fun _ => .bind (.frame_reporting ?_ ?_) fun _ => .pure _
    · intro now db after saved
      obtain ⟨rows, rfl⟩ := Db.updateRecoveryCode_ok saved
      exact codes _ _
    · intro db event member
      exact List.mem_singleton.mp member ▸ silentUsed _

theorem disableAsync_frame (sessions : ∀ db sessions, view { db with sessions } = view db)
    (http : HttpContext) (userId : Guid) : Keeps law K (disableAsync http userId) := by
  apply Keeps.bind
  · exact .frame_execute (fun _ => credentials _ _) fun _ _ member => nomatch member
  intro deleted
  apply Keeps.guard
  apply Keeps.bind
  · exact .frame_execute (fun _ => codes _ _) fun _ _ member => nomatch member
  intro _
  apply Keeps.bind (SessionService.revokeAllForUserAsync_frame sessions _ _ _)
  intro revoked
  exact .ite (.bind (.logAsync http _ _) fun _ => .notifyAsync _ _ _) (.notifyAsync _ _ _)

omit credentials in
theorem regenerateRecoveryCodesAsync_frame (services : Services) (userId : Guid) :
    Keeps law K (regenerateRecoveryCodesAsync services userId) := by
  apply Keeps.bind (.query _)
  intro enabled
  apply Keeps.guard
  apply Keeps.bind
  · refine replaceRecoveryCodesAsync_frame codes services _ ?_ fun _ _ member => nomatch member
    intro now db after saved
    cases saved
    rfl
  intro recoveryCodes
  exact .bind (.notifyAsync _ _ _) fun _ => .pure _

end Totp

end TotpService

/-! ### Verification tokens -/

/-- Adding verification tokens of this type stays within `K`. -/
def StoresKept (law : Law Input World Event) (K : State → State → Prop) (services : Services)
    (type : VerificationTokenType) : Prop :=
  ∀ userId lifetime, Keeps law K (VerificationTokens.store services userId type lifetime)

/-- Consuming verification tokens of this type stays within `K`. -/
def ConsumesKept (law : Law Input World Event) (K : State → State → Prop)
    (type : VerificationTokenType) (consumer : TokenConsumer) : Prop :=
  ∀ hash now requires, Keeps law K (VerificationTokens.consume hash type now requires consumer)

include frames in
theorem storesKept_frame
    (tokens : ∀ db verificationTokens, view { db with verificationTokens } = view db)
    (services : Services) (type : VerificationTokenType) : StoresKept law K services type :=
  fun _ _ => VerificationTokens.store_frame tokens services _ _ _

include frames in
theorem consumesKept_frame
    (tokens : ∀ db verificationTokens, view { db with verificationTokens } = view db)
    {consumer : TokenConsumer}
    (silent : ∀ token, ¬ counts (.verificationTokenConsumed token consumer))
    (type : VerificationTokenType) : ConsumesKept law K type consumer :=
  fun _ _ _ => VerificationTokens.consume_frame tokens silent _ _ _ _

/-! ### Passkeys -/

namespace PasskeyService

section Passkeys

include frames

theorem registrationOptionsAsync_frame {services : Services}
    (stores : StoresKept law K services .passkeyRegistrationChallenge) (userId : Guid) :
    Keeps law K (registrationOptionsAsync services userId) := by
  apply Keeps.bind (.queryOrThrow _)
  intro found
  apply Keeps.bind (.orThrow _ _)
  intro _
  apply Keeps.bind (stores _ _)
  intro _
  exact .bind .utcNow fun _ => .pure _

theorem authenticationOptionsAsync_frame {services : Services}
    (stores : StoresKept law K services .passkeyAuthenticationChallenge) :
    Keeps law K (authenticationOptionsAsync services) :=
  .bind (stores _ _) fun _ => .bind .utcNow fun _ => .pure _

theorem consumeChallengeAsync_frame {type : VerificationTokenType} {consumer : TokenConsumer}
    (consumes : ConsumesKept law K type consumer) (services : Services) (challenge : String)
    (userId : Option Guid) :
    Keeps law K (consumeChallengeAsync services challenge type userId consumer) := by
  apply Keeps.bind .utcNow
  intro now
  apply Keeps.bind (consumes _ _ _)
  intro _
  exact .ite (.throw _) (.pure _)

variable (passkeys : ∀ db passkeyCredentials, view { db with passkeyCredentials } = view db)

include passkeys

theorem completeRegistrationAsync_frame {userId : Guid}
    (consumes : ConsumesKept law K .passkeyRegistrationChallenge (.passkeyRegistration userId))
    (services : Services) (fido2 : Fido2) (request : AuthenticatorResponse)
    (label : Option String) :
    Keeps law K (completeRegistrationAsync services fido2 userId request label) := by
  apply Keeps.tryCatch
  · apply Keeps.bind (.orThrow _ _)
    intro raw
    apply Keeps.bind (.orThrow _ _)
    intro challenge
    apply Keeps.bind
    · exact consumeChallengeAsync_frame consumes services _ _
    intro _
    apply Keeps.bind (.queryOrThrow _)
    intro user
    apply Keeps.bind (.orThrow _ _)
    intro result
    apply Keeps.bind (.query _)
    intro taken
    apply Keeps.guard
    apply Keeps.bind .draw
    intro id
    apply Keeps.bind
    · refine .frame_saveChanges ?_
      intro now db after saved
      obtain ⟨rows, -, equal⟩ := bind_eq_ok.mp saved
      rw [pure_eq_ok.mp equal, passkeys]
    intro _
    exact .bind (.notifyAsync _ _ _) fun _ => .pure _
  intro exception
  exact .throw _

theorem completeAuthenticationAsync_frame
    (sessions : ∀ db sessions, view { db with sessions } = view db)
    (refreshTokens : ∀ db refreshTokens, view { db with refreshTokens } = view db)
    (consumes : ConsumesKept law K .passkeyAuthenticationChallenge .passkeyAuthentication)
    (silentAsserted : ∀ credential signCount, ¬ counts (.passkeyAsserted credential signCount))
    (services : Services)
    (fido2 : Fido2) (http : HttpContext) (request : AuthenticatorResponse) :
    Keeps law K (completeAuthenticationAsync services fido2 http request) := by
  apply Keeps.tryCatch
  · apply Keeps.bind (.orThrow _ _)
    intro raw
    apply Keeps.bind (.orThrow _ _)
    intro challenge
    apply Keeps.bind
    · exact consumeChallengeAsync_frame consumes services _ _
    intro _
    apply Keeps.bind (.orThrow _ _)
    intro credentialId
    apply Keeps.bind (.queryOrThrow _)
    intro found
    apply Keeps.bind (.orThrow _ _)
    intro credential
    apply Keeps.guard
    apply Keeps.bind (.orThrow _ _)
    intro signCount
    apply Keeps.guard
    apply Keeps.bind .utcNow
    intro lastUsedAt
    apply Keeps.bind
    · refine .frame_reporting ?_ ?_
      · intro now db after saved
        obtain ⟨-, rfl⟩ := Db.updatePasskeyCredential_eq_ok.mp saved
        exact passkeys _ _
      · intro db event member
        exact List.mem_singleton.mp member ▸ silentAsserted _ _
    intro _
    apply Keeps.bind
    · exact AuthenticationSessionFactory.createAsync_frame sessions refreshTokens services http _ _
    intro response
    exact .bind (.logAsync http _ _) fun _ => .pure _
  intro exception
  exact .throw _

theorem removeAsync_frame (silent : ∀ credential, ¬ counts (.passkeyRemoved credential))
    (userId : Guid) (credentialId : Option String) :
      Keeps law K (removeAsync userId credentialId) := by
  apply Keeps.bind (.orThrow _ _)
  intro decoded
  apply Keeps.bind
  · refine .frame_execute (fun _ => passkeys _ _) ?_
    intro db event member
    obtain ⟨credential, -, rfl⟩ := List.mem_map.mp member
    exact silent credential
  intro deleted
  exact .guard (.notifyAsync _ _ _)

end Passkeys

end PasskeyService

/-! ### Social logins -/

include frames in
theorem SocialAuthService.authorizeAsync_frame {services : Services}
    (stores : StoresKept law K services .socialAuthorizationState) (host : SocialHost)
    (provider : String) : Keeps law K (authorizeAsync services host provider) := by
  apply Keeps.bind (.done _)
  intro normalized
  apply Keeps.bind (stores _ _)
  intro _
  exact .bind (.done _) fun _ => .pure _

include frames in
/-- The callback, from what it makes of the user. -/
theorem SocialAuthService.callbackAsync_frame
    (sessions : ∀ db sessions, view { db with sessions } = view db)
    (refreshTokens : ∀ db refreshTokens, view { db with refreshTokens } = view db)
    (consumes : ConsumesKept law K .socialAuthorizationState .socialState)
    (services : Services)
    (creates : ∀ linked name identity, Keeps law K (createUserAsync services linked name identity))
    (host : SocialHost) (http : HttpContext) (answers : ProviderAnswers) (provider : String)
    (query : SocialCallbackQuery) :
    Keeps law K (callbackAsync services host http answers provider query) := by
  have resolves : ∀ name identity, Keeps law K (resolveUserAsync services http name identity) := by
    intro name identity
    refine .bind (.queryOrThrow _) fun linked => ?_
    cases linked with
    | some user => exact .pure user
    | none =>
        refine .bind (creates _ name identity) fun _ => ?_
        exact .bind (.logAsync http _ _) fun _ => .pure _
  apply Keeps.bind (.done _)
  intro name
  apply Keeps.guard
  apply Keeps.bind
  · apply Keeps.bind .utcNow
    intro now
    apply Keeps.bind (consumes _ _ _)
    intro _
    exact .ite (.throw _) (.pure _)
  intro _
  apply Keeps.bind (.done _)
  intro identity
  apply Keeps.bind (resolves name identity)
  intro _
  apply Keeps.bind
  · exact AuthenticationSessionFactory.createAsync_frame sessions refreshTokens services http _ _
  intro _
  exact .bind (.logAsync http _ _) fun _ => .pure _

/-! ### Cleanup -/

namespace ExpiredAuthArtifactCleanupService

include frames in
/-- The cleanup, from what it makes of the verification tokens. -/
theorem cleanupOnceAsync_frame (sessions : ∀ db sessions, view { db with sessions } = view db)
    (refreshTokens : ∀ db refreshTokens, view { db with refreshTokens } = view db)
    (entries : ∀ db auditLogEntries, view { db with auditLogEntries } = view db)
    {services : Services}
    (tokens : ∀ now, Keeps law K (deleteVerificationTokensAsync services now)) :
    Keeps law K (cleanupOnceAsync services) := by
  refine .bind .utcNow fun _ => .bind ?_ fun _ => .bind ?_ fun _ => .bind (tokens _) fun _ => ?_
  all_goals refine .bind (.query _) fun ids => ?_
  all_goals refine .ite (.bind (.frame_execute ?_ ?_) fun _ => .pure _) (.pure _)
  all_goals try exact fun _ _ member => nomatch member
  · exact fun db => refreshTokens _ _
  · intro db
    have both : ∀ (rows : List Session) (issued : List RefreshToken),
        view { db with sessions := rows, refreshTokens := issued } = view db :=
      fun rows issued => (refreshTokens { db with sessions := rows } issued).trans
        (sessions db rows)
    exact both _ _
  · exact fun db => entries _ _

end ExpiredAuthArtifactCleanupService

end AuthStartpack
