import AuthStartpack.Refresh.Tracking
import AuthStartpack.Services.UserFrames
import AuthStartpack.SocialAuth.Completion

/-!
Owns which steps create a session. A session keeps the user and the methods of
its sign-in, so that none is made out of another one: of all operations, only the
four that end a sign-in have a step that adds one.
-/

namespace AuthStartpack

/-- Whom a session signed in, and by what. -/
def Session.signIn (session : Session) : Guid × Guid × List AuthenticationMethod :=
  (session.id, session.userId, session.authenticationMethods)

/-- A session that was not there before. -/
structure NewSession (before after : List Session) (session : Session) : Prop where
  stored : session ∈ after
  fresh : ∀ old ∈ before, old.signIn ≠ session.signIn

instance (before after : List Session) (session : Session) :
    Decidable (NewSession before after session) :=
  decidable_of_iff (session ∈ after ∧ ∀ old ∈ before, old.signIn ≠ session.signIn)
    ⟨fun ⟨stored, fresh⟩ => ⟨stored, fresh⟩, fun new => ⟨new.stored, new.fresh⟩⟩

/-- What a step adds: one session at most, and a justified one. -/
structure AddsJustified (justified : Session → Prop) (before after : List Session) : Prop where
  justified : ∀ session, NewSession before after session → justified session
  single : ∀ first second, NewSession before after first → NewSession before after second →
    first = second

/-- The sessions were there before. -/
def NoneNew (before after : List Session) : Prop :=
  ∀ later ∈ after, ∃ old ∈ before, old.signIn = later.signIn

namespace NoneNew

variable {before after : List Session}

theorem addsJustified (none : NoneNew before after) (justified : Session → Prop) :
    AddsJustified justified before after := by
  have nothing : ∀ session, ¬ NewSession before after session := by
    intro session new
    obtain ⟨old, member, same⟩ := none session new.stored
    exact new.fresh old member same
  exact ⟨fun session new => absurd new (nothing session), fun first _ new =>
    absurd new (nothing first)⟩

theorem of_map (same : after.map Session.signIn = before.map Session.signIn) :
    NoneNew before after := by
  intro later member
  have listed : later.signIn ∈ before.map Session.signIn := same ▸ List.mem_map_of_mem member
  exact List.mem_map.mp listed

theorem deleteWhere (pred : Session → Bool) (sessions : List Session) :
    NoneNew sessions (Table.deleteWhere pred sessions) :=
  fun later member => ⟨later, (Table.mem_deleteWhere.mp member).1, rfl⟩

theorem refl (sessions : List Session) : NoneNew sessions sessions := of_map rfl

end NoneNew

/-- A row added behind the others. -/
theorem AddsJustified.append {justified : Session → Prop} {sessions : List Session} {row : Session}
    (allowed : justified row) : AddsJustified justified sessions (sessions ++ [row]) := by
  have isRow : ∀ session, NewSession sessions (sessions ++ [row]) session → session = row := by
    intro session new
    rcases List.mem_append.mp new.stored with old | added
    · exact absurd rfl (new.fresh session old)
    · exact List.mem_singleton.mp added
  constructor
  case justified =>
    intro session new
    rw [isRow session new]
    exact allowed
  case single =>
    intro first second newFirst newSecond
    rw [isRow first newFirst, isRow second newSecond]

/-! ### The law -/

/-- At the moments that are seen, a step adds no other sessions than justified ones. -/
abbrev Law.signingIn (seen : ℕ → State → Input → Prop) (justified : ℕ → State → Session → Prop) :
    Law Input World Event where
  admits state call input _ := seen call state input
  rely call before after := Shared.Untouched call before after
  guarantee call before after :=
    AddsJustified (justified call before) before.store.db.sessions after.store.db.sessions

section Steps

variable {seen : ℕ → State → Input → Prop} {justified : ℕ → State → Session → Prop}

instance : Frames (.signingIn seen justified) (fun _ _ => True) Db.sessions fun _ => False where
  calm call :=
    { refl := fun _ => trivial
      trans := fun _ _ _ _ _ => trivial
      rely := fun _ _ _ => trivial
      quiet := by
        intro state input world _ step
        obtain ⟨auditLogEntries, equal⟩ := step.db
        refine ⟨?_, trivial⟩
        show AddsJustified _ state.store.db.sessions world.db.sessions
        rw [equal]
        exact (NoneNew.refl _).addsJustified _ }
  frame call state input world events _ same _ _ := by
    refine ⟨?_, trivial⟩
    show AddsJustified _ state.store.db.sessions world.db.sessions
    rw [same]
    exact (NoneNew.refl _).addsJustified _

/-- No step of the program adds a session. -/
abbrev NeverSignsIn (seen : ℕ → State → Input → Prop) (justified : ℕ → State → Session → Prop)
    {α : Type} (program : Action α) : Prop :=
  Keeps (.signingIn seen justified) (fun _ _ => True) program

namespace NeverSignsIn

/-- A bulk update of other columns. -/
theorem updateSessions {pred : Session → Bool} {write : Session → Session}
    (keeps : ∀ row, (write row).signIn = row.signIn) :
    NeverSignsIn seen justified (SessionService.updateSessions pred write) :=
  Keeps.execute fun _ _ _ _ _ _ =>
    ⟨(NoneNew.of_map (Table.map_updateWhere keeps)).addsJustified _, trivial⟩

theorem saveChanges {changes : Instant → Db → Except AppException Db} {events : Db → List Event}
    (none : ∀ now db after, changes now db = .ok after → NoneNew db.sessions after.sessions) :
    NeverSignsIn seen justified (Action.saveChanges changes events) :=
  Keeps.saveChanges fun _ _ _ _ _ _ saved _ => ⟨(none _ _ _ saved).addsJustified _, trivial⟩

/-- A statement on other tables. -/
theorem elsewhere {count : Db → ℕ} {write : Db → Db} {events : Db → List Event}
    (same : ∀ db, (write db).sessions = db.sessions) :
    NeverSignsIn seen justified (Action.execute count write events) :=
  .frame_execute same fun _ _ _ => not_false

end NeverSignsIn

/-! ### Rotations -/

/-- What the attempts of a rotation keep of their tracker: it rewrites no sign-in. -/
structure TracksSignIns (tracker : ChangeTracker) : Prop where
  keyed : Table.Keyed (Tracked.keyOf Session.id) tracker.sessions
  unchanged : ∀ entry ∈ tracker.sessions, entry.state = .unchanged ∧
    entry.current.signIn = entry.original.signIn

namespace TracksSignIns

variable {tracker : ChangeTracker}

theorem empty : TracksSignIns {} where
  keyed := List.nodup_nil
  unchanged _ member := nomatch member

theorem resolve (tracks : TracksSignIns tracker) (token : RefreshToken) (session : Session) :
    TracksSignIns (tracker.resolve token session) := by
  refine ⟨Tracked.keyed_resolve tracks.keyed, ?_⟩
  intro entry member
  rcases Tracked.mem_resolve member with old | rfl
  · exact tracks.unchanged entry old
  · exact ⟨rfl, rfl⟩

/-- Assigning other columns to a tracked session. -/
theorem assignSession (tracks : TracksSignIns tracker) {session assigned : Session}
    (instances : ∃ entry ∈ tracker.sessions, entry.current = session)
    (same : assigned.signIn = session.signIn) : TracksSignIns (tracker.assignSession assigned) := by
  obtain ⟨own, ownMember, rfl⟩ := instances
  have sameId : assigned.id = own.current.id := congrArg Prod.fst same
  refine ⟨Tracked.keyed_assign tracks.keyed, ?_⟩
  intro entry member
  rcases Tracked.mem_assign member with ⟨old, -⟩ | ⟨old, oldMember, hit, rfl⟩
  · exact tracks.unchanged entry old
  · obtain ⟨unmodified, kept⟩ := tracks.unchanged old oldMember
    obtain rfl : old = own := tracks.keyed.eq_of_key oldMember ownMember (hit.trans sameId)
    exact ⟨unmodified, same.trans kept⟩

theorem acceptAllChanges (tracks : TracksSignIns tracker) :
    TracksSignIns tracker.acceptAllChanges := by
  refine ⟨Tracked.keyed_accepted tracks.keyed, ?_⟩
  intro entry member
  obtain ⟨old, -, rfl⟩ := List.mem_map.mp member
  exact ⟨rfl, rfl⟩

/-- A save of the tracked entities. -/
theorem changes_signIns (tracks : TracksSignIns tracker) {savedAt : Instant} {db after : Db}
    (saved : tracker.changes savedAt db = .ok after) :
    after.sessions.map Session.signIn = db.sessions.map Session.signIn := by
  obtain ⟨middle, sessionsSaved, tokensSaved⟩ := bind_eq_ok.mp saved
  have kept : middle.sessions.map Session.signIn = db.sessions.map Session.signIn := by
    refine @foldlM_relates _ _ _
      (fun before after : Db =>
        after.sessions.map Session.signIn = before.sessions.map Session.signIn)
      (fun _ => rfl) (fun early late => late.trans early) _ _ ?_ _ _ sessionsSaved
    intro entry member before later statement
    obtain ⟨unmodified, same⟩ := tracks.unchanged entry member
    rw [ChangeTracker.saveSession, unmodified] at statement
    obtain ⟨-, rfl⟩ := Db.updateSession_eq_ok.mp statement
    apply Table.map_updateWhere
    intro row
    simp only [Session.signIn, Prod.mk.injEq] at same
    simp [Session.signIn, Session.merge, same]
  refine Eq.trans ?_ kept
  refine @foldlM_relates _ _ _
    (fun before after : Db =>
      after.sessions.map Session.signIn = before.sessions.map Session.signIn)
    (fun _ => rfl) (fun early late => late.trans early) _ _ ?_ _ _ tokensSaved
  intro entry _ before later statement
  unfold ChangeTracker.saveToken at statement
  split at statement
  · rw [(Db.insertRefreshToken_eq_ok.mp statement).2]
  · rw [(Db.updateRefreshToken_eq_ok.mp statement).2]

end TracksSignIns

namespace RefreshTokenService

variable {services : Services} {http : HttpContext} {call : ℕ} {tracker : ChangeTracker}
variable {state : State}

/-- What one run of the delegate may end with. -/
abbrev EndsSignIns : Except AppException (Attempt ChangeTracker RefreshResult) → State → Prop :=
  Action.retrying (fun tracker _ => TracksSignIns tracker) fun _ _ => True

theorem transaction_signIns {now : Instant} {event : Event} {results : RefreshResult → Prop}
    (tracks : TracksSignIns tracker) :
    Transaction (.signingIn seen justified) call (fun _ _ => True) state tracker now event results
      EndsSignIns where
  saveFailed _ _ _ _ _ := ⟨(NoneNew.refl _).addsJustified _, tracks⟩
  commitFailed _ _ _ _ _ := ⟨(NoneNew.refl _).addsJustified _, tracks.acceptAllChanges⟩
  committed _ _ _ _ _ _ saved :=
    ⟨(NoneNew.of_map (tracks.changes_signIns saved)).addsJustified _, fun _ _ _ _ => trivial⟩
  refused _ _ _ _ _ _ _ := trivial

theorem judge_signIns {stored : RefreshToken} {session : Session} {now : Instant}
    (tracks : TracksSignIns tracker)
    (instances : ∃ entry ∈ tracker.sessions, entry.current = session) :
    (judge services http tracker stored session now).wp (.signingIn seen justified) call EndsSignIns
      state := by
  have calm : Calm (.signingIn seen justified) call fun _ _ => True := inferInstance
  unfold judge
  split
  case isTrue =>
    exact wp_revokeReplayed calm (transaction_signIns (tracks.assignSession instances rfl))
  split
  case isTrue => trivial
  split
  case isTrue => trivial
  split
  case isTrue => trivial
  split
  case isTrue => trivial
  rw [Program.wp_bind]
  refine Action.calm_queryOrThrow calm ?_
  intro stamped _
  cases Action.single ((stamped.store.db.users.filter (·.id = session.userId)).map
      (·.securityStamp)) with
  | error exception => trivial
  | ok currentStamp =>
      rw [Program.andThen_ok]
      split
      case isTrue => trivial
      refine wp_rotate calm ?_ fun _ _ _ _ => trivial
      intro drawn ready successor _ _
      have tracked : TracksSignIns
          ((tracker.assignToken (spend stored now successor.id)).addToken successor) :=
        ⟨tracks.keyed, tracks.unchanged⟩
      exact transaction_signIns (tracked.assignSession instances rfl)

theorem rotateAsync_signIns (services : Services) (http : HttpContext) (token : String) :
    NeverSignsIn seen justified (rotateAsync services http token) := by
  intro call start
  have calm : Calm (.signingIn seen justified) call fun _ _ => True := inferInstance
  have each : ∀ tracker state, TracksSignIns tracker →
      (attempt services http (services.tokenGenerator.hash token) tracker).wp
        (.signingIn seen justified) call EndsSignIns state := by
    intro tracker state tracks
    rw [attempt, Program.wp_bind]
    refine Action.calm_queryOrThrow calm ?_
    intro read _
    cases Action.singleOrDefault (presented (services.tokenGenerator.hash token) read.store.db) with
    | error exception => trivial
    | ok found =>
        cases found with
        | none => trivial
        | some row =>
            rw [Program.andThen_ok, Program.wp_bind]
            refine Action.calm_utcNow calm ?_
            intro dated _
            exact judge_signIns (tracks.resolve _ _) Tracked.tracked_instanceOf
  exact Action.wp_executionStrategy each (fun _ _ _ => trivial) .empty

end RefreshTokenService

/-! ### The operations -/

namespace NeverSignsIn

theorem refreshAsync (services : Services) (http : HttpContext)
    (cookieToken bodyToken : Option String) :
    NeverSignsIn seen justified
      (RefreshService.refreshAsync services http cookieToken bodyToken) := by
  unfold RefreshService.refreshAsync
  split
  · exact .throw _
  refine .ite (.throw _) (.bind (RefreshTokenService.rotateAsync_signIns _ _ _) fun result => ?_)
  split
  · exact .throw _
  · exact .pure _
  · exact .throw _

theorem revokeAsync (sessionId : Guid) (reason : SessionRevocationReason) :
    NeverSignsIn seen justified (SessionService.revokeAsync sessionId reason) :=
  .bind .utcNow fun _ => .bind (updateSessions fun _ => rfl) fun _ => .pure _

theorem revokeAllForUserAsync (userId : Guid) (exceptSessionId : Option Guid)
    (reason : SessionRevocationReason) :
    NeverSignsIn seen justified
      (SessionService.revokeAllForUserAsync userId exceptSessionId reason) :=
  .bind .utcNow fun _ => updateSessions fun _ => rfl

theorem revokeForSessionAsync (sessionId : Guid) :
    NeverSignsIn seen justified (RefreshTokenService.revokeForSessionAsync sessionId) :=
  RefreshTokenService.revokeForSessionAsync_frame (fun _ _ => rfl) sessionId

theorem deleteUser (user : User) :
    NeverSignsIn seen justified (Action.saveChanges fun _ db => db.deleteUser user) := by
  refine saveChanges ?_
  intro now db after saved
  unfold Db.deleteUser at saved
  split at saved
  · cases saved
    exact .deleteWhere _ _
  · cases saved

theorem updateUser (original current : User) (events : Db → List Event)
    (silent : ∀ db, ∀ event ∈ events db, ¬ False) :
    NeverSignsIn seen justified
      (Action.saveChanges (fun now db => db.updateUser now original current) events) := by
  refine .frame_reporting ?_ silent
  intro now db after saved
  obtain ⟨users, rfl⟩ := Db.updateUser_ok saved
  rfl

theorem consumes (type : VerificationTokenType) (consumer : TokenConsumer) :
    ConsumesKept (.signingIn seen justified) (fun _ _ => True) type consumer :=
  consumesKept_frame (fun _ _ => rfl) (fun _ => not_false) _

theorem stores (services : Services) (type : VerificationTokenType) :
    StoresKept (.signingIn seen justified) (fun _ _ => True) services type :=
  storesKept_frame (fun _ _ => rfl) services _

theorem confirmReset (services : Services) (http : HttpContext) (token newPassword : String) :
    NeverSignsIn seen justified
      (PasswordResetService.confirmAsync services http token newPassword) := by
  apply Keeps.bind .utcNow
  intro now
  apply Keeps.bind (consumes _ _ _ _ _)
  intro _
  apply Keeps.guard
  apply Keeps.bind (.queryOrThrow _)
  intro found
  apply Keeps.bind (.orThrow _ _)
  intro value
  apply Keeps.bind (.queryOrThrow _)
  intro _
  apply Keeps.bind .draw
  intro drawn
  apply Keeps.bind .draw
  intro _
  apply Keeps.bind
  · exact updateUser _ _ _ fun _ _ _ => not_false
  intro _
  apply Keeps.bind (revokeAllForUserAsync _ _ _)
  intro _
  apply Keeps.bind (.logAsync http _ _)
  intro _
  apply Keeps.bind (.notifyAsync _ _ _)
  intro _
  exact .ite (.logAsync http _ _) (.pure _)

theorem changePassword (services : Services) (http : HttpContext) (userId currentSessionId : Guid)
    (currentPassword newPassword : String) :
    NeverSignsIn seen justified
      (UserService.changePasswordAsync services http userId currentSessionId
      currentPassword newPassword) := by
  apply Keeps.bind (.queryOrThrow _)
  intro found
  apply Keeps.bind (.orThrow _ _)
  intro value
  apply Keeps.guard
  apply Keeps.bind .draw
  intro drawn
  apply Keeps.bind .draw
  intro _
  apply Keeps.bind
  · exact updateSessions fun _ => rfl
  intro _
  apply Keeps.bind
  · exact updateUser _ _ _ fun _ _ _ => not_false
  intro _
  apply Keeps.bind (revokeAllForUserAsync _ _ _)
  intro _
  exact .bind (.logAsync http _ _) fun _ => .notifyAsync _ _ _

theorem disableTotp (http : HttpContext) (userId : Guid) :
    NeverSignsIn seen justified (TotpService.disableAsync http userId) := by
  apply Keeps.bind
  · exact elsewhere fun _ => rfl
  intro _
  apply Keeps.guard
  apply Keeps.bind
  · exact elsewhere fun _ => rfl
  intro _
  apply Keeps.bind (revokeAllForUserAsync _ _ _)
  intro _
  apply Keeps.ite
  · exact .bind (.logAsync http _ _) fun _ => .notifyAsync _ _ _
  · exact .notifyAsync _ _ _

theorem revokeSession (http : HttpContext) (userId sessionId : Guid) :
    NeverSignsIn seen justified (SessionQueryService.revokeAsync http userId sessionId) := by
  apply Keeps.bind (.query _)
  intro found
  apply Keeps.guard
  apply Keeps.bind (revokeAsync _ _)
  intro _
  exact .bind (revokeForSessionAsync _) fun _ => .logAsync http _ _

theorem revokeOtherSessions (http : HttpContext) (userId currentSessionId : Guid) :
    NeverSignsIn seen justified
      (SessionQueryService.revokeAllOthersAsync http userId currentSessionId) := by
  apply Keeps.bind (.query _)
  intro found
  apply Keeps.bind (revokeAllForUserAsync _ _ _)
  intro _
  apply Keeps.ite
  · apply Keeps.bind .utcNow
    intro now
    apply Keeps.bind
    · exact elsewhere fun _ => rfl
    intro _
    exact .bind (.logAsync http _ _) fun _ => .pure _
  · exact .pure _

theorem cleanup (services : Services) :
    NeverSignsIn seen justified (ExpiredAuthArtifactCleanupService.cleanupOnceAsync services) := by
  apply Keeps.bind .utcNow
  intro now
  apply Keeps.bind
  · apply Keeps.bind (.query _)
    intro found
    apply Keeps.ite
    · exact .bind (elsewhere fun _ => rfl) fun _ => .pure _
    · exact .pure _
  intro _
  apply Keeps.bind
  · apply Keeps.bind (.query _)
    intro found
    apply Keeps.ite
    · refine .bind (Keeps.execute fun _ _ current _ _ _ => ?_) fun _ => .pure _
      exact ⟨(NoneNew.deleteWhere _ _).addsJustified _, trivial⟩
    · exact .pure _
  intro _
  apply Keeps.bind
  · apply Keeps.bind (.query _)
    intro found
    apply Keeps.ite
    · exact .bind (elsewhere fun _ => rfl) fun _ => .pure _
    · exact .pure _
  intro _
  apply Keeps.bind (.query _)
  intro found
  apply Keeps.ite
  · exact .bind (elsewhere fun _ => rfl) fun _ => .pure _
  · exact .pure _

theorem checkedUser (original current : User) (text : Option String) :
    NeverSignsIn seen justified (Action.saveChanges fun now db => do
      checkText 100 text
      db.updateUser now original current) := by
  refine .frame_saveChanges ?_
  intro now db after saved
  obtain ⟨-, -, saved⟩ := bind_eq_ok.mp saved
  obtain ⟨users, rfl⟩ := Db.updateUser_ok saved
  rfl

theorem register (services : Services) (http : HttpContext) (request : RegisterRequest) :
    NeverSignsIn seen justified (RegistrationService.registerAsync services http request) := by
  refine RegistrationService.registerAsync_frame (fun _ => ?_) (fun _ => not_false) not_false ?_
  · exact VerificationTokens.store_frame_reporting (fun _ _ => rfl)
      (fun _ _ _ => not_false) services _ _ _
  · intro user token _
    refine .frame_reporting ?_ fun _ _ _ => not_false
    intro now db after saved
    obtain ⟨-, verificationTokens, rfl⟩ := RegistrationService.addUser_eq_ok saved
    rfl

theorem logout (http : HttpContext) (userId sessionId : Guid) :
    NeverSignsIn seen justified (LogoutService.logoutAsync http userId sessionId) := by
  apply Keeps.bind (revokeAsync _ _)
  intro _
  exact .bind (revokeForSessionAsync _) fun _ => .logAsync http _ _

theorem deleteAccount (userId : Guid) :
    NeverSignsIn seen justified (UserService.deleteAccountAsync userId) := by
  apply Keeps.bind (.queryOrThrow _)
  intro found
  apply Keeps.bind (.orThrow _ _)
  intro value
  exact .bind (revokeAllForUserAsync _ _ _) fun _ => deleteUser _

theorem unlinkAccount (userId accountId : Guid) :
    NeverSignsIn seen justified (UserService.unlinkAccountAsync userId accountId) := by
  refine UserService.unlinkAccountAsync_frame
    (fun account => .frame_reporting ?_ ?_) userId accountId
  · intro now db after saved
    rw [Db.deleteAccount_ok saved]
  · exact fun _ _ _ => not_false

theorem adminDelete (http : HttpContext) (userId : Guid) :
    NeverSignsIn seen justified (AdminUserService.deleteAsync http userId) := by
  apply Keeps.bind (.queryOrThrow _)
  intro found
  apply Keeps.bind (.orThrow _ _)
  intro value
  apply Keeps.bind (revokeAllForUserAsync _ _ _)
  intro _
  exact .bind (deleteUser _) fun _ => .logAsync http _ _

theorem adminRevokeSessions (userId : Guid) :
    NeverSignsIn seen justified (AdminSessionService.revokeAllAsync userId) := by
  apply Keeps.bind (.query _)
  intro found
  exact .guard (revokeAllForUserAsync _ _ _)

end NeverSignsIn

/-- The operations that may end in a session. -/
def ServiceOperation.signsIn : ServiceOperation → Bool
  | login .. | completeMfa .. | socialCallback .. | passkeyAuthentication .. => true
  | _ => false

theorem ServiceOperation.neverSignsIn {services : Services} {fido2 : Fido2} (op : ServiceOperation)
    (other : op.signsIn = false) : NeverSignsIn seen justified (op.program services fido2) := by
  have quiet : ¬ False := not_false
  have saves : ∀ (original current : User) (events : Db → List Event),
      NeverSignsIn seen justified
        (Action.saveChanges (fun now db => db.updateUser now original current) events) :=
    fun _ _ _ => NeverSignsIn.updateUser _ _ _ fun _ _ _ => quiet
  have stores := @NeverSignsIn.stores seen justified services
  have consumes := @NeverSignsIn.consumes seen justified
  cases op with
  | login http email password => cases other
  | completeMfa http mfaTicket code => cases other
  | register http request => exact .bind (NeverSignsIn.register _ _ _) fun _ => .pure _
  | refresh http cookieToken bodyToken =>
      exact .bind (NeverSignsIn.refreshAsync _ _ _ _) fun _ => .pure _
  | logout http userId sessionId => exact NeverSignsIn.logout _ _ _
  | sendVerification userId => exact EmailVerificationService.sendAsync_frame (stores _) userId
  | confirmEmail http token =>
      refine .bind ?_ fun _ => .pure _
      exact EmailVerificationService.confirmAsync_frame (consumes _ _)
        (fun _ => saves _ _ _) services
        http token
  | requestReset http email => exact PasswordResetService.requestAsync_frame (stores _) http email
  | confirmReset http token newPassword => exact NeverSignsIn.confirmReset _ _ _ _
  | updateProfile userId displayName =>
      refine .bind ?_ fun _ => .pure _
      exact UserService.updateProfileAsync_frame
        (fun _ _ => NeverSignsIn.checkedUser _ _ _) userId displayName
  | changePassword http userId currentSessionId currentPassword newPassword =>
      exact NeverSignsIn.changePassword _ _ _ _ _ _
  | deleteAccount userId => exact NeverSignsIn.deleteAccount _
  | unlink userId accountId => exact NeverSignsIn.unlinkAccount _ _
  | socialAuthorize host provider =>
      refine .bind ?_ fun _ => .pure _
      exact SocialAuthService.authorizeAsync_frame (stores _) host provider
  | socialCallback host http answers provider query => cases other
  | passkeyRegistrationOptions userId =>
      refine .bind ?_ fun _ => .pure _
      exact PasskeyService.registrationOptionsAsync_frame (stores _) userId
  | passkeyRegistration userId request label =>
      refine .bind ?_ fun _ => .pure _
      exact PasskeyService.completeRegistrationAsync_frame (fun _ _ => rfl)
        (consumes _ _) services fido2
        request label
  | passkeyRemoval userId credentialId =>
      exact PasskeyService.removeAsync_frame (fun _ _ => rfl) (fun _ => quiet) userId credentialId
  | passkeyAuthenticationOptions =>
      refine .bind ?_ fun _ => .pure _
      exact PasskeyService.authenticationOptionsAsync_frame (stores _)
  | passkeyAuthentication http request => cases other
  | enrollTotp userId =>
      refine .bind ?_ fun _ => .pure _
      exact TotpService.enrollAsync_frame (fun _ _ => rfl) (fun _ => quiet) services userId
  | confirmTotp userId code =>
      refine .bind ?_ fun _ => .pure _
      exact TotpService.confirmAsync_frame (fun _ _ => rfl) (fun _ _ => rfl)
        (fun _ _ _ => quiet) services
        userId code
  | disableTotp http userId => exact NeverSignsIn.disableTotp _ _
  | regenerateRecoveryCodes userId =>
      refine .bind ?_ fun _ => .pure _
      exact TotpService.regenerateRecoveryCodesAsync_frame (fun _ _ => rfl) services userId
  | revokeSession http userId sessionId => exact NeverSignsIn.revokeSession _ _ _
  | revokeOtherSessions http userId currentSessionId =>
      exact .bind (NeverSignsIn.revokeOtherSessions _ _ _) fun _ => .pure _
  | adminUpdate userId request =>
      refine .bind ?_ fun _ => .pure _
      exact AdminUserService.updateAsync_frame
        (fun _ _ => NeverSignsIn.checkedUser _ _ _) userId request
  | adminDelete http userId => exact NeverSignsIn.adminDelete _ _
  | adminRevokeSessions userId =>
      exact .bind (NeverSignsIn.adminRevokeSessions _) fun _ => .pure _
  | cleanup => exact NeverSignsIn.cleanup _

end Steps

end AuthStartpack
