import AuthStartpack.SocialAuth.Completion

/-!
Owns social logins among registrations, unlinking and profile changes, in any
interleaving. Nothing collides with a drawn id, so that a callback whose state
was accepted ends in a session of the linked user as long as every save of a new
user finds its address and its account free.
-/

namespace AuthStartpack

inductive SocialOperation
  | register (http : HttpContext) (request : RegisterRequest)
  | authorize (host : SocialHost) (provider : String)
  | callback (host : SocialHost) (http : HttpContext) (answers : ProviderAnswers)
      (provider : String) (query : SocialCallbackQuery)
  | unlink (userId accountId : Guid)
  | updateProfile (userId : Guid) (displayName : Option String)

inductive SocialResponse
  | registered (response : RegisterResponse)
  | authorized (response : SocialAuthorizeResponse)
  | signedIn (response : LoginResponse)
  | unlinked
  | updated (profile : UserProfileResponse)
deriving DecidableEq, Repr

def SocialOperation.program (services : Services) : SocialOperation → Action SocialResponse
  | register http request => do
      return .registered (← RegistrationService.registerAsync services http request)
  | authorize host provider => do
      return .authorized (← SocialAuthService.authorizeAsync services host provider)
  | callback host http answers provider query => do
      return .signedIn (← SocialAuthService.callbackAsync services host http answers provider query)
  | unlink userId accountId => do
      UserService.unlinkAccountAsync userId accountId
      return .unlinked
  | updateProfile userId displayName => do
      return .updated (← UserService.updateProfileAsync userId displayName)

/-! ### No collisions -/

section Apart

variable {services : Services} {http : HttpContext}

namespace Saves

theorem addUser {user : User} {token : VerificationToken} {spent : List ℕ}
    (drawn : user.id ∈ spent) :
    Saves (storedKeys services) spent (RegistrationService.addUser services.lower user token) := by
  have inserts : Saves (storedKeys services) ([user.id] ++ ([] ++ [])) fun now db =>
      db.insertUser now services.lower user >>= fun db =>
        db.insertUserRole now { userId := user.id, roleId := RoleSeed.userRoleId } >>= fun db =>
          db.insertVerificationToken now token :=
    .bind (.insertUser List.mem_cons_self)
      (.bind (.insertUserRole _) (.insertVerificationToken _) nofun) nofun
  refine (inserts.checkText 100 user.displayName).mono ?_
  intro number member
  rw [List.append_nil, List.append_nil, List.mem_singleton] at member
  exact member ▸ drawn

theorem addLinkedUser {user : User} {account : Account} {spent : List ℕ}
    (drawnUser : user.id ∈ spent)
    (drawnAccount : account.id ∈ spent) (differ : account.id ≠ user.id) :
    Saves (storedKeys services) spent
      (SocialAuthService.addLinkedUser services.lower user account) := by
  have inserts : Saves (storedKeys services) ([user.id] ++ ([] ++ [account.id])) fun now db =>
      db.insertUser now services.lower user >>= fun db =>
        db.insertUserRole now { userId := user.id, roleId := RoleSeed.userRoleId } >>= fun db =>
          AuthStartpack.checkText 256 (some account.providerAccountId) >>= fun _ =>
            db.insertAccount now account := by
    refine .bind (.insertUser List.mem_cons_self) (.bind (.insertUserRole _)
      (.checkText (.insertAccount List.mem_cons_self) _ _) fun _ _ => List.not_mem_nil) ?_
    intro number member
    rw [List.nil_append, List.mem_singleton] at member
    subst member
    simpa using differ
  refine (inserts.checkText 100 user.displayName).mono ?_
  intro number member
  rcases List.mem_append.mp member with ofUser | ofAccount
  · exact List.mem_singleton.mp ofUser ▸ drawnUser
  · exact List.mem_singleton.mp ofAccount ▸ drawnAccount

end Saves

namespace SocialAuthService

theorem normalizeProvider_apart {provider : String} {exception : AppException}
    (refused : normalizeProvider provider = .error exception) : ¬ IsCollision exception := by
  unfold normalizeProvider at refused
  dsimp only at refused
  split at refused <;> cases refused
  decide

theorem provider_apart {host : SocialHost} {name : String} {exception : AppException}
    (refused : provider host name = .error exception) : ¬ IsCollision exception := by
  unfold provider at refused
  dsimp only at refused
  split at refused <;> split at refused <;> cases refused <;> decide

theorem authorizationUrl_apart {host : SocialHost} {name state : String} {exception : AppException}
    (refused : authorizationUrl host name state = .error exception) : ¬ IsCollision exception := by
  unfold authorizationUrl at refused
  dsimp only at refused
  split at refused
  · cases refused
  rcases bind_eq_error.mp refused with unconfigured | ⟨configuration, -, refused⟩
  · exact provider_apart unconfigured
  · split at refused <;> cases refused

theorem answered_apart {α : Type} {answer : Answer α} {exception : AppException}
    (refused : answered answer = .error exception) : ¬ IsCollision exception := by
  cases answer <;> cases refused <;> decide

theorem answeredList_apart {α : Type} {answer : Answer (List α)} {exception : AppException}
    (refused : answeredList answer = .error exception) : ¬ IsCollision exception := by
  cases answer <;> cases refused
  decide

theorem identityOf_apart {host : SocialHost} {answers : ProviderAnswers} {name code : String}
    {exception : AppException} (refused : identityOf host answers name code = .error exception) :
    ¬ IsCollision exception := by
  unfold identityOf at refused
  split at refused
  case isTrue =>
    unfold demoIdentity at refused
    split at refused
    · cases refused
    split at refused <;> cases refused
    decide
  case isFalse =>
    split at refused
    · rcases bind_eq_error.mp refused with unconfigured | ⟨_, -, refused⟩
      · exact provider_apart unconfigured
      rcases bind_eq_error.mp refused with failed | ⟨token, -, refused⟩
      · exact answered_apart failed
      rcases bind_eq_error.mp refused with failed | ⟨profile, -, refused⟩
      · exact answered_apart failed
      · cases refused
    · rcases bind_eq_error.mp refused with unconfigured | ⟨_, -, refused⟩
      · exact provider_apart unconfigured
      rcases bind_eq_error.mp refused with failed | ⟨token, -, refused⟩
      · exact answered_apart failed
      rcases bind_eq_error.mp refused with failed | ⟨profile, -, refused⟩
      · exact answered_apart failed
      rcases bind_eq_error.mp refused with failed | ⟨emails, -, refused⟩
      · exact answeredList_apart failed
      · cases refused

end SocialAuthService

namespace StoresOnly

theorem handleExistingAsync {spent : List ℕ} (existing : User) :
    StoresOnly (storedKeys services) spent
      (RegistrationService.handleExistingAsync services existing) :=
  .bind (.store _ _ _ _) fun _ => .bind (.queueEmailReporting _) fun _ => .pure _

theorem createRegistered {user : User} {token : VerificationToken} {plaintext : String}
    {spent : List ℕ} (drawn : user.id ∈ spent) :
    StoresOnly (storedKeys services) spent
      (RegistrationService.createAsync services http user token plaintext) := by
  apply StoresOnly.before
  · apply StoresOnly.tryCatch
    · exact .before (.saveChanges (.addUser drawn)) fun _ => .pure _
    · intro exception other
      exact .ite (.pure _) (.throw other)
  intro raced
  apply StoresOnly.ite
  · exact .bind (.single _) fun existing => .handleExistingAsync existing
  · exact .bind (.logAsync _ _) fun _ => .bind (.queueEmailReporting _) fun _ => .pure _

theorem registerAsync (request : RegisterRequest) :
    StoresOnly (storedKeys services) []
      (RegistrationService.registerAsync services http request) := by
  refine .bind (.drawReporting _) fun salt => .bind (.singleOrDefault _) fun existing => ?_
  cases existing with
  | some user => exact .handleExistingAsync user
  | none =>
      refine .draw fun id _ => .draw fun stamp _ => .draw fun plaintext _ => .draw fun tokenId _ =>
        .bind .utcNow fun _ => .createRegistered ?_
      simp

theorem authorizeAsync (host : SocialHost) (provider : String) :
    StoresOnly (storedKeys services) []
      (SocialAuthService.authorizeAsync services host provider) := by
  apply StoresOnly.bind
  · exact .outcome fun _ => SocialAuthService.normalizeProvider_apart
  intro _
  apply StoresOnly.bind (.store _ _ _ _)
  intro _
  exact .bind (.outcome fun _ => SocialAuthService.authorizationUrl_apart) fun _ => .pure _

theorem createLinked (linked : Option Guid) (name : String) (identity : SocialIdentity) :
    StoresOnly (storedKeys services) []
      (SocialAuthService.createUserAsync services linked name identity) := by
  refine .bind ?_ fun usable => .draw fun id _ => .draw fun stamp _ => .draw fun accountId fresh =>
    .before (.attemptChanges (.addLinkedUser ?_ ?_ ?_)) fun _ => .pure _
  · exact .ite (.pure _) (.query _)
  · simp
  · simp
  · intro same
    dsimp only at same
    subst same
    simp at fresh

theorem signInAsync (differ : TokensDiffer services) (name : String) (identity : SocialIdentity) :
    StoresOnly (storedKeys services) []
      (SocialAuthService.signInAsync services http name identity) := by
  have resolve : StoresOnly (storedKeys services) []
      (SocialAuthService.resolveUserAsync services http name identity) := by
    refine .bind (.singleOrDefault _) fun linked => ?_
    cases linked with
    | some user => exact .pure user
    | none =>
        exact .bind (.createLinked none name identity)
          fun _ => .bind (.logAsync _ _) fun _ => .pure _
  apply StoresOnly.bind resolve
  intro user
  apply StoresOnly.bind (.createAuthenticationSession differ _ _)
  intro _
  exact .bind (.logAsync _ _) fun _ => .pure _

theorem callbackAsync (differ : TokensDiffer services) (host : SocialHost)
    (answers : ProviderAnswers)
    (provider : String) (query : SocialCallbackQuery) :
    StoresOnly (storedKeys services) []
      (SocialAuthService.callbackAsync services host http answers provider query) := by
  apply StoresOnly.bind
  · exact .outcome fun _ => SocialAuthService.normalizeProvider_apart
  intro name
  apply StoresOnly.ite (.throw (by simp [storedKeys, IsCollision]))
  apply StoresOnly.bind
  · exact .bind .utcNow fun _ => .bind (.consume _ _ _ _ _)
      fun _ => .ite (.throw (by simp [storedKeys, IsCollision])) (.pure _)
  intro _
  exact .bind (.outcome fun _ => SocialAuthService.identityOf_apart)
    fun identity => .signInAsync differ name identity

theorem unlinkAccountAsync (userId accountId : Guid) :
    StoresOnly (storedKeys services) [] (UserService.unlinkAccountAsync userId accountId) := by
  apply StoresOnly.bind (.singleOrDefault _)
  intro found
  apply StoresOnly.bind (.orThrow (by simp [storedKeys, IsCollision]) found)
  intro account
  apply StoresOnly.bind (.query _)
  intro alternative
  apply StoresOnly.ite (.throw (by simp [storedKeys, IsCollision]))
  exact .bind (.saveChanges (.deleteAccount account)) fun _ => .notifyAsync _ _ _

theorem updateProfileAsync (userId : Guid) (displayName : Option String) :
    StoresOnly (storedKeys services) [] (UserService.updateProfileAsync userId displayName) := by
  apply StoresOnly.bind (.singleOrDefault _)
  intro found
  apply StoresOnly.bind (.orThrow (by simp [storedKeys, IsCollision]) found)
  intro user
  apply StoresOnly.bind (.saveChanges (.checkText (.updateUser _ _) _ _))
  intro _
  exact .bind (.singleOrDefault _)
    fun profile => .orThrow (by simp [storedKeys, IsCollision]) profile

end StoresOnly

end Apart

theorem SocialOperation.storesOnly {services : Services} (differ : TokensDiffer services)
    (op : SocialOperation) : StoresOnly (storedKeys services) [] (op.program services) := by
  cases op with
  | register http request => exact .bind (.registerAsync request) fun _ => .pure _
  | authorize host provider => exact .bind (.authorizeAsync host provider) fun _ => .pure _
  | callback host http answers provider query =>
      exact .bind (.callbackAsync differ host answers provider query) fun _ => .pure _
  | unlink userId accountId => exact .bind (.unlinkAccountAsync userId accountId) fun _ => .pure _
  | updateProfile userId displayName =>
      exact .bind (.updateProfileAsync userId displayName) fun _ => .pure _

/-! ### Concurrent operations -/

theorem SocialAuthService.authorizeAsync_links {services : Services} (host : SocialHost)
    (provider : String) :
    Keeps (.linking services.lower) Links (authorizeAsync services host provider) := by
  apply Keeps.bind (.done _)
  intro normalized
  apply Keeps.bind
  · exact VerificationTokens.store_frame (fun _ _ => rfl) services _ _ _
  intro state
  exact .bind (.done _) fun _ => .pure _

abbrev SocialPool := Pool Input World Event AppException SocialResponse

/-- Operations that have not begun. -/
def operatingSocial (services : Services) (operations : List SocialOperation) (start : State) :
    SocialPool where
  shared := start
  calls := operations.map (·.program services)

/-- The answer of a callback is a session of the linked user. -/
def CallbackSucceeds (start : State) (name subject : String) :
    Except AppException SocialResponse → State → Prop
  | .ok (.signedIn response), later =>
      SocialAuthService.SignsInLinked start name subject response later
  | _, _ => False

theorem CallbackSucceeds.later {start before after : State} {name subject : String}
    {outcome : Except AppException SocialResponse}
    (succeeds : CallbackSucceeds start name subject outcome before) (kept : Links before after) :
    CallbackSucceeds start name subject outcome after := by
  match outcome, succeeds with
  | .ok (.signedIn response), signsIn => exact SocialAuthService.SignsInLinked.later signsIn kept

/-- What a call of the pool comes to: a callback whose state was accepted, and whose provider has
returned an identity, succeeds if it does not collide. -/
def SucceedsOrCollides (operations : List SocialOperation) (start : State) (call : ℕ)
    (outcome : Except AppException SocialResponse) (later : State) : Prop :=
  ∀ host http answers provider query name identity,
    operations[call]? = some (.callback host http answers provider query) →
    SocialAuthService.ConsumedState call later →
    SocialAuthService.normalizeProvider provider = .ok name →
    SocialAuthService.identityOf host answers name (query.code.getD "") = .ok identity →
    CallbackSucceeds start name identity.subject outcome later ∨
      ∃ exception, outcome = .error exception ∧ IsCollision exception

/-- Any operation but a callback. -/
theorem succeedsOrCollides_of_other {operations : List SocialOperation} {start : State} {call : ℕ}
    {lower : String → String} {program : Action SocialResponse}
    (keeps : Keeps (.linking lower) Links program)
    (other : ∀ host http answers provider query,
      operations[call]? ≠ some (.callback host http answers provider query)) :
    program.wp (.linking lower) call (SucceedsOrCollides operations start call) start := by
  refine Program.wp_mono (keeps call start) ?_
  intro outcome later _ host http answers provider query name identity same
  exact absurd same (other host http answers provider query)

theorem SocialOperation.succeedsOrCollides {services : Services} {operations : List SocialOperation}
    {start : State} {call : ℕ} {op : SocialOperation} (found : operations[call]? = some op)
    (holds : Constraints start.store.db) (silent : start.journal = []) :
    (op.program services).wp (.linking services.lower) call
      (SucceedsOrCollides operations start call)
      start := by
  cases op with
  | register http request =>
      refine succeedsOrCollides_of_other
        (.bind (RegistrationService.registerAsync_links request) fun _ => .pure _) ?_
      simp [found]
  | authorize host provider =>
      refine succeedsOrCollides_of_other
        (.bind (SocialAuthService.authorizeAsync_links host provider) fun _ => .pure _) ?_
      simp [found]
  | unlink userId accountId =>
      refine succeedsOrCollides_of_other
        (.bind (UserService.unlinkAccountAsync_links userId accountId) fun _ => .pure _) ?_
      simp [found]
  | updateProfile userId displayName =>
      refine succeedsOrCollides_of_other
        (.bind (UserService.updateProfileAsync_links userId displayName) fun _ => .pure _) ?_
      simp [found]
  | callback host http answers provider query =>
      have quiet : start.eventsOf call = [] := by simp [Shared.eventsOf, silent]
      refine Program.wp_bind_of (SocialAuthService.callbackAsync_completes holds quiet) ?_ ?_
      · intro response later completed host http answers provider query name identity same
        rw [found] at same
        cases same
        intro consumed normalized returned
        exact .inl (completed consumed name identity normalized returned)
      · intro exception later completed host http answers provider query name identity same
        rw [found] at same
        cases same
        intro consumed normalized returned
        exact .inr ⟨exception, rfl, completed consumed name identity normalized returned⟩

section

variable {services : Services} {operations : List SocialOperation} {start : State}
variable {schedule : List (ℕ × Input)}

/-- No operation collides with a drawn id. -/
theorem operatingSocial_apart (differ : TokensDiffer services)
    (sound : (drawnKeys services).Sound start.store) {call : ℕ}
    {outcome : Except AppException SocialResponse}
    (ended : ((operatingSocial services operations start).run schedule).outcome? call =
      some outcome) :
    ∀ exception, outcome = .error exception → ¬ IsCollision exception := by
  have owned : (operatingSocial services operations start).Owned (drawnKeys services)
      (fun _ outcome => ∀ exception, outcome = .error exception → ¬ IsCollision exception)
      fun _ _ => False := by
    refine Pool.owned_of_owns sound ?_
    intro call program found
    simp only [operatingSocial, List.getElem?_map, Option.map_eq_some_iff] at found
    obtain ⟨op, -, rfl⟩ := found
    exact Program.owns_mono (op.storesOnly differ _ nofun) fun outcome left spared => spared.1
  obtain ⟨owner, stillOwned⟩ := Pool.run_owned owned schedule
  exact stillOwned.outcome ended

end

/-- The database as it is seeded. -/
def seededWorld : World where
  db := { roles := [{ id := RoleSeed.userRoleId, name := "User" }] }
  supply := 1

theorem seededWorld_constraints : Constraints seededWorld.db where
  users := List.nodup_nil
  accounts := List.nodup_nil
  owners := nofun
  assigned := nofun
  role := ⟨_, List.mem_cons_self, rfl⟩
  sessions := List.nodup_nil

theorem seededWorld_sound (services : Services) : (drawnKeys services).Sound seededWorld := by
  rintro number (used | used | used | ⟨token, member, -⟩)
  · cases used
  · cases used
  · cases used
  · cases member

theorem tokensDiffer_sample : TokensDiffer .sample := by
  intro left right same
  have texts := congrArg String.length same
  simpa [Services.sample, String.length_append] using texts

/-- A login of the subject 7 of Google. -/
def subjectLogin (state : String) (email : Option String) : SocialOperation :=
  .callback .sample {} (.sample ⟨"7", email, true, some "Ada"⟩) "Google"
    { code := some "code", state := some state }

/-- Two first logins of one subject. -/
def firstLogins : SocialPool :=
  operatingSocial .sample
    [.authorize .sample "Google", .authorize .sample "Google",
      subjectLogin "t" (some "ada@example.test"), subjectLogin "ttt" (some "ada@example.test")]
    (Shared.initial seededWorld ⟨90, false⟩)

/-- The placeholder of a subject is registered before its first login. -/
def registeredPlaceholder : SocialPool :=
  operatingSocial .sample
    [.register {} { email := "google-7@invalid.local", password := "secret" },
      .authorize .sample "Google", subjectLogin "ttttttt" none]
    (Shared.initial seededWorld ⟨90, false⟩)

/-- This many steps of a call. -/
def callSteps (call count : ℕ) : List (ℕ × Input) := List.replicate count (call, ⟨100, false⟩)

def oneAfterTheOther : List (ℕ × Input) :=
  callSteps 0 4 ++ callSteps 1 4 ++ callSteps 2 30 ++ callSteps 3 30

/-- Each login looks the account and the address up before the other saves. -/
def bothAtOnce : List (ℕ × Input) :=
  callSteps 0 4 ++ callSteps 1 4 ++ callSteps 2 4 ++ callSteps 3 4 ++ callSteps 2 30 ++
    callSteps 3 30

/-- The event by which a call reports that it has consumed its state. -/
def consumesState : Event → Bool
  | .verificationTokenConsumed _ .socialState => true
  | _ => false

theorem SocialAuthService.consumedState_of_any {call : ℕ} {state : State}
    (reported : (state.eventsOf call).any consumesState = true) : ConsumedState call state := by
  obtain ⟨event, member, consumes⟩ := List.any_eq_true.mp reported
  cases event with
  | verificationTokenConsumed token consumer =>
      cases consumer with
      | socialState => exact ⟨token, member⟩
      | _ => cases consumes
  | _ => cases consumes

/-- The second login of the subject has ended, and its state was accepted. -/
def acceptedAndEnded (pool : SocialPool) (call : ℕ) : Bool :=
  (pool.outcome? call).isSome && (pool.shared.eventsOf call).any consumesState

theorem normalizeProvider_google : SocialAuthService.normalizeProvider "Google" = .ok "google" := by
  decide +kernel

/-- The outcome of a callback whose state was accepted is the violation of the unique email. -/
def violatesUniqueEmail (pool : SocialPool) (call : ℕ) : Bool :=
  acceptedAndEnded pool call && pool.outcome? call = some (.error (.dbUpdate "IX_Users_Email"))

end AuthStartpack
