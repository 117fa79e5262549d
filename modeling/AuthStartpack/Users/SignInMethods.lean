import Mathlib
import AuthStartpack.Services.UserFrames
import AuthStartpack.SocialAuth.Callbacks

/-!
Owns the ways to sign in that a user has: a password, a passkey, a linked
account. Everything but a removal leaves them. The removal of an account asks for
another way first, in a step before the DELETE, and the removal of a passkey does
not ask. So a user keeps a way to sign in as long as what was asked is still so
at the DELETE of the account, and the DELETE of a passkey finds another way.
-/

namespace AuthStartpack

/-- The user has a password, a passkey or a linked account. -/
def Db.HasSignInMethod (db : Db) (userId : Guid) : Prop :=
  (∃ user ∈ db.users, user.id = userId ∧ user.passwordHash.isSome) ∨
    (∃ passkey ∈ db.passkeyCredentials, passkey.userId = userId) ∨
      ∃ account ∈ db.accounts, account.userId = userId

instance (db : Db) (userId : Guid) : Decidable (db.HasSignInMethod userId) :=
  inferInstanceAs (Decidable (_ ∨ _ ∨ _))

/-- Every user that has a way to sign in keeps one. -/
def KeepsMethods (before after : State) : Prop :=
  ∀ userId, before.store.db.HasSignInMethod userId → after.store.db.HasSignInMethod userId

/-- The user has another way to sign in than this passkey. -/
def hasOtherThanPasskey (userId : Guid) (credentialId : String) (db : Db) : Bool :=
  db.users.any (fun user => user.id = userId && user.passwordHash.isSome) ||
    db.passkeyCredentials.any (fun other =>
      other.userId = userId && other.credentialId ≠ credentialId) ||
        db.accounts.any (·.userId = userId)

/-- At the removal of an account its check would find what it has found, and the removal of a
passkey, which has no check, finds another way to sign in. -/
def LeavesAnother (state : State) (_ : ℕ) (_ : Input) (events : List Event) : Prop :=
  ∀ event ∈ events, match event with
    | .accountRemoved account hasAlternative =>
        UserService.hasAlternative account.userId account.id state.store.db = hasAlternative
    | .passkeyRemoved credential =>
        hasOtherThanPasskey credential.userId credential.credentialId state.store.db = true
    | _ => True

instance (state : State) (call : ℕ) (input : Input) (events : List Event) :
    Decidable (LeavesAnother state call input events) := by
  refine @List.decidableBAll _ _ (fun event => ?_) events
  split <;> infer_instance

/-- Any interleaving of such removals with other operations. -/
def Law.leaving : Law Input World Event := .concurrent LeavesAnother KeepsMethods

theorem KeepsMethods.refl (state : State) : KeepsMethods state state := fun _ has => has

theorem KeepsMethods.trans (first second third : State) (early : KeepsMethods first second)
    (late : KeepsMethods second third) : KeepsMethods first third :=
  fun userId has => late userId (early userId has)

/-- The tables in which the ways to sign in are stored. -/
def Db.methodTables (db : Db) : List User × List PasskeyCredential × List Account :=
  (db.users, db.passkeyCredentials, db.accounts)

theorem Db.HasSignInMethod.of_same {db after : Db} (same : after.methodTables = db.methodTables)
    {userId : Guid} (has : db.HasSignInMethod userId) : after.HasSignInMethod userId := by
  simp only [methodTables, Prod.mk.injEq] at same
  obtain ⟨users, passkeys, accounts⟩ := same
  unfold HasSignInMethod
  rw [users, passkeys, accounts]
  exact has

instance : Frames .leaving KeepsMethods Db.methodTables fun _ => False := by
  refine Frames.concurrent KeepsMethods.refl KeepsMethods.trans (fun _ _ => rfl) ?_
  intro state call input world events _ same _ _ userId has
  exact has.of_same same

/-! ### Saves that take nothing away -/

/-- Nobody loses a password, a passkey or an account. -/
structure TakesNothing (db after : Db) : Prop where
  passwords : ∀ user ∈ db.users, ∃ later ∈ after.users,
    later.id = user.id ∧ (user.passwordHash.isSome → later.passwordHash.isSome)
  passkeys : ∀ passkey ∈ db.passkeyCredentials, passkey ∈ after.passkeyCredentials
  accounts : ∀ account ∈ db.accounts, account ∈ after.accounts

theorem TakesNothing.keeps {db after : Db} (nothing : TakesNothing db after) {userId : Guid}
    (has : db.HasSignInMethod userId) : after.HasSignInMethod userId := by
  rcases has with ⟨user, member, own, password⟩ | ⟨passkey, member, own⟩ | ⟨account, member, own⟩
  · obtain ⟨later, laterMember, same, stays⟩ := nothing.passwords user member
    exact .inl ⟨later, laterMember, same.trans own, stays password⟩
  · exact .inr (.inl ⟨passkey, nothing.passkeys passkey member, own⟩)
  · exact .inr (.inr ⟨account, nothing.accounts account member, own⟩)

/-- Adding a user. -/
theorem TakesNothing.of_added {db after : Db} {added : List User}
    (users : after.users = db.users ++ added)
    (passkeys : after.passkeyCredentials = db.passkeyCredentials)
    (accounts : ∀ account ∈ db.accounts, account ∈ after.accounts) : TakesNothing db after where
  passwords user member := by
    refine ⟨user, ?_, rfl, id⟩
    rw [users]
    exact List.mem_append_left _ member
  passkeys passkey member := passkeys ▸ member
  accounts := accounts

/-- A new password, whatever has become of the user since it was read. -/
theorem TakesNothing.of_newPassword {db after : Db} {now : Instant} {original : User}
    {hash : String} {stamp : Guid}
    (saved : db.updateUser now original
      { original with passwordHash := some hash, securityStamp := stamp } = .ok after) :
    TakesNothing db after := by
  obtain ⟨-, rfl⟩ := Db.updateUser_eq_ok.mp saved
  refine ⟨?_, fun _ member => member, fun _ member => member⟩
  intro user member
  let current := { original with passwordHash := some hash, securityStamp := stamp }
  cases hit : decide (user.id = original.id) && decide (current ≠ original) with
  | false => exact ⟨user, Table.mem_updateWhere_of_not member hit, rfl, id⟩
  | true =>
      refine ⟨_, Table.mem_updateWhere_of_hit member hit, rfl, ?_⟩
      intro password
      unfold User.merge changed
      dsimp only
      split
      · exact password
      · rfl

namespace Keeps

theorem leaving_saveChanges {changes : Instant → Db → Except AppException Db}
    {events : Db → List Event}
    (nothing : ∀ now db after, changes now db = .ok after → TakesNothing db after) :
    Keeps .leaving KeepsMethods (Action.saveChanges changes events) := by
  refine .saveChanges ?_
  intro call start current input db relied saved _
  have written : KeepsMethods current (current.advance call input
      ({ current.store with db }, events current.store.db)) :=
    fun _ has => (nothing _ _ _ saved).keeps has
  exact ⟨written, relied.1.trans _ _ _ written⟩

theorem leaving_attemptChanges {changes : Instant → Db → Except AppException Db}
    {events : List Event}
    (nothing : ∀ now db after, changes now db = .ok after → TakesNothing db after) :
    Keeps .leaving KeepsMethods (Action.attemptChanges changes events) := by
  intro call start
  refine Action.wp_attemptChanges (K := KeepsMethods) inferInstance ?_ ?_
  · intro current input db reached saved _
    have written : KeepsMethods current (current.advance call input
        ({ current.store with db }, events)) :=
      fun _ has => (nothing _ _ _ saved).keeps has
    exact ⟨written, reached.trans _ _ _ written⟩
  · intro current input exception reached _ _
    exact ⟨fun _ has => has, reached⟩

end Keeps

/-! ### Removals -/

section Removals

variable {state : State} (call : ℕ) (input : Input)

/-- The DELETE of the accounts with this id. -/
theorem accountRemoval_keeps {accountId : Guid}
    (leaves : LeavesAnother state call input
      ((state.store.db.accounts.filter (·.id = accountId)).map (.accountRemoved · true)))
    {userId : Guid} (has : state.store.db.HasSignInMethod userId) :
    Db.HasSignInMethod { state.store.db with
      accounts := Table.deleteWhere (·.id = accountId) state.store.db.accounts } userId := by
  rcases has with password | passkey | ⟨account, member, rfl⟩
  · exact .inl password
  · exact .inr (.inl passkey)
  by_cases removed : account.id = accountId
  case neg =>
    have stays : account ∈ Table.deleteWhere (·.id = accountId) state.store.db.accounts :=
      Table.mem_deleteWhere.mpr ⟨member, by simpa using removed⟩
    exact .inr (.inr ⟨account, stays, rfl⟩)
  case pos =>
    have listed : account ∈ state.store.db.accounts.filter (·.id = accountId) :=
      List.mem_filter.mpr ⟨member, by simpa using removed⟩
    have found := leaves _ (List.mem_map_of_mem (f := (Event.accountRemoved · true)) listed)
    simp only [UserService.hasAlternative, List.any_eq_true, Bool.and_eq_true, Bool.or_eq_true,
      decide_eq_true_eq] at found
    obtain ⟨user, userMember, own,
        (password | passkey) | ⟨other, otherMember, otherOwn, differs⟩⟩ :=
      found
    · exact .inl ⟨user, userMember, own, password⟩
    · exact .inr (.inl passkey)
    · have stays : other ∈ Table.deleteWhere (·.id = accountId) state.store.db.accounts :=
        Table.mem_deleteWhere.mpr ⟨otherMember, by simpa [removed] using differs⟩
      exact .inr (.inr ⟨other, stays, otherOwn⟩)

/-- The DELETE of a passkey. -/
theorem passkeyRemoval_keeps {ownerId : Guid} {credentialId : String}
    (leaves : LeavesAnother state call input
      ((state.store.db.passkeyCredentials.filter fun credential =>
      credential.userId = ownerId && credential.credentialId = credentialId).map .passkeyRemoved))
    {userId : Guid} (has : state.store.db.HasSignInMethod userId) :
    Db.HasSignInMethod { state.store.db with
      passkeyCredentials := Table.deleteWhere
        (fun credential => credential.userId = ownerId && credential.credentialId = credentialId)
        state.store.db.passkeyCredentials } userId := by
  let hit (credential : PasskeyCredential) : Bool :=
    credential.userId = ownerId && credential.credentialId = credentialId
  rcases has with password | ⟨passkey, member, rfl⟩ | account
  · exact .inl password
  case inr.inr => exact .inr (.inr account)
  cases removed : hit passkey with
  | false =>
      have stays : passkey ∈ Table.deleteWhere hit state.store.db.passkeyCredentials :=
        Table.mem_deleteWhere.mpr ⟨member, removed⟩
      exact .inr (.inl ⟨passkey, stays, rfl⟩)
  | true =>
      have found := leaves _ (List.mem_map_of_mem (List.mem_filter.mpr ⟨member, removed⟩))
      simp only [hasOtherThanPasskey, Bool.or_eq_true, List.any_eq_true, Bool.and_eq_true,
        decide_eq_true_eq] at found
      rcases found with (password | ⟨other, otherMember, otherOwn, differs⟩) | account
      · exact .inl password
      · have same : passkey.credentialId = credentialId := by
          simp only [hit, Bool.and_eq_true, decide_eq_true_eq] at removed
          exact removed.2
        have stays : other ∈ Table.deleteWhere hit state.store.db.passkeyCredentials := by
          refine Table.mem_deleteWhere.mpr ⟨otherMember, ?_⟩
          simp [hit, ← same, differs]
        exact .inr (.inl ⟨other, stays, otherOwn⟩)
      · exact .inr (.inr account)

end Removals

theorem UserService.unlinkAccountAsync_keepsMethods (userId accountId : Guid) :
    Keeps .leaving KeepsMethods (unlinkAccountAsync userId accountId) := by
  refine unlinkAccountAsync_frame (fun account => .saveChanges ?_) userId accountId
  intro call start current input db relied saved leaves
  have written : KeepsMethods current (current.advance call input ({ current.store with db },
      (current.store.db.accounts.filter (·.id = account.id)).map (.accountRemoved · true))) := by
    intro owner has
    rw [Db.deleteAccount_ok saved]
    exact accountRemoval_keeps call input leaves has
  exact ⟨written, relied.1.trans _ _ _ written⟩

theorem PasskeyService.removeAsync_keepsMethods (userId : Guid) (credentialId : Option String) :
    Keeps .leaving KeepsMethods (removeAsync userId credentialId) := by
  apply Keeps.bind (.orThrow _ _)
  intro decoded
  apply Keeps.bind
  · refine .execute ?_
    intro call start current input relied leaves written
    have kept : KeepsMethods current written := fun _ has =>
      passkeyRemoval_keeps call input leaves has
    exact ⟨kept, relied.1.trans _ _ _ kept⟩
  intro deleted
  exact .guard (.notifyAsync _ _ _)

/-! ### Saves that add -/

section Saves

theorem registers_methods {services : Services} {request : RegisterRequest} {user : User}
    {token : VerificationToken}
    (_ : Registers request user token) :
    Keeps .leaving KeepsMethods
      (Action.saveChanges (RegistrationService.addUser services.lower user token)
        fun _ => [.userRegistered user, .verificationTokenIssued token]) := by
  refine .leaving_saveChanges ?_
  intro now db after saved
  obtain ⟨-, verificationTokens, rfl⟩ := RegistrationService.addUser_eq_ok saved
  exact .of_added rfl rfl fun _ member => member

theorem social_methods (services : Services) (linked : Option Guid) (name : String)
    (identity : SocialIdentity) :
    Keeps .leaving KeepsMethods
      (SocialAuthService.createUserAsync services linked name identity) := by
  apply Keeps.bind
  · exact .ite (.pure _) (.query _)
  intro _
  apply Keeps.bind .draw
  intro drawn
  apply Keeps.bind .draw
  intro _
  apply Keeps.bind .draw
  intro _
  apply Keeps.bind
  · refine .leaving_attemptChanges ?_
    intro now db after saved
    obtain ⟨-, -, -, rfl⟩ := SocialAuthService.addLinkedUser_eq_ok saved
    exact .of_added rfl rfl fun _ member => List.mem_append_left _ member
  intro _
  exact .pure _

theorem passwords_methods (original : User) (hash : String) (stamp : Guid) :
    Keeps .leaving KeepsMethods (Action.saveChanges fun now db =>
      db.updateUser now original
        { original with passwordHash := some hash, securityStamp := stamp }) :=
  .leaving_saveChanges fun _ _ _ saved => .of_newPassword saved

theorem insertPasskeyCredential_takesNothing {row : PasskeyCredential} {now : Instant}
    {db after : Db} (saved : db.insertPasskeyCredential now row = .ok after) :
    TakesNothing db after := by
  simp only [Db.insertPasskeyCredential, bind_eq_ok, pure_eq_ok, insertRow_eq_ok] at saved
  obtain ⟨_, ⟨-, rfl⟩, rfl⟩ := saved
  refine ⟨fun user member => ⟨user, member, rfl, id⟩, ?_, fun _ member => member⟩
  intro passkey member
  exact List.mem_append_left _ member

theorem PasskeyService.completeRegistrationAsync_keepsMethods {services : Services} {fido2 : Fido2}
    (userId : Guid) (request : AuthenticatorResponse) (label : Option String) :
    Keeps .leaving KeepsMethods
      (completeRegistrationAsync services fido2 userId request label) := by
  refine .tryCatch ?_ fun _ => .throw _
  apply Keeps.bind (.orThrow _ _)
  intro raw
  apply Keeps.bind (.orThrow _ _)
  intro challenge
  apply Keeps.bind
  · exact consumeChallengeAsync_frame (consumesKept_frame (fun _ _ => rfl) (fun _ => id) _)
      services _ _
  intro _
  apply Keeps.bind (.queryOrThrow _)
  intro user
  apply Keeps.bind (.orThrow _ _)
  intro result
  apply Keeps.bind (.query _)
  intro taken
  apply Keeps.guard
  apply Keeps.bind .draw
  intro id
  apply Keeps.bind
  · refine .leaving_saveChanges ?_
    intro now db after saved
    exact insertPasskeyCredential_takesNothing saved
  intro _
  exact .bind (.notifyAsync _ _ _) fun _ => .pure _

end Saves

/-! ### Concurrent operations -/

inductive CredentialOperation
  | register (http : HttpContext) (request : RegisterRequest)
  | socialAuthorize (host : SocialHost) (provider : String)
  | socialCallback (host : SocialHost) (http : HttpContext) (answers : ProviderAnswers)
      (provider : String) (query : SocialCallbackQuery)
  | passkeyOptions (userId : Guid)
  | passkeyRegistration (userId : Guid) (request : AuthenticatorResponse) (label : Option String)
  | passkeyRemoval (userId : Guid) (credentialId : Option String)
  | unlink (userId accountId : Guid)
  | changePassword (http : HttpContext) (userId currentSessionId : Guid)
      (currentPassword newPassword : String)
  | requestReset (http : HttpContext) (email : String)
  | confirmReset (http : HttpContext) (token newPassword : String)

/-- The operation, without its answer. -/
def CredentialOperation.program (services : Services) (fido2 : Fido2) :
    CredentialOperation → Action Unit
  | register http request => do
      let _ ← RegistrationService.registerAsync services http request
  | socialAuthorize host provider => do
      let _ ← SocialAuthService.authorizeAsync services host provider
  | socialCallback host http answers provider query => do
      let _ ← SocialAuthService.callbackAsync services host http answers provider query
  | passkeyOptions userId => do
      let _ ← PasskeyService.registrationOptionsAsync services userId
  | passkeyRegistration userId request label => do
      let _ ← PasskeyService.completeRegistrationAsync services fido2 userId request label
  | passkeyRemoval userId credentialId => PasskeyService.removeAsync userId credentialId
  | unlink userId accountId => UserService.unlinkAccountAsync userId accountId
  | changePassword http userId currentSessionId currentPassword newPassword =>
      UserService.changePasswordAsync services http userId currentSessionId
        currentPassword newPassword
  | requestReset http email => PasswordResetService.requestAsync services http email
  | confirmReset http token newPassword =>
      PasswordResetService.confirmAsync services http token newPassword

theorem CredentialOperation.keepsMethods {services : Services} {fido2 : Fido2}
    (op : CredentialOperation) : Keeps .leaving KeepsMethods (op.program services fido2) := by
  have stores := @storesKept_frame .leaving KeepsMethods _ _ _ _ (fun _ _ => rfl) services
  have consumes : ∀ type consumer, ConsumesKept .leaving KeepsMethods type consumer :=
    fun type _ => consumesKept_frame (fun _ _ => rfl) (fun _ => id) type
  cases op with
  | register http request =>
      refine .bind ?_ fun _ => .pure _
      refine RegistrationService.registerAsync_frame (fun _ => ?_) (fun _ => id) id
        fun _ _ => registers_methods
      exact VerificationTokens.store_frame_reporting (fun _ _ => rfl)
        (fun _ _ _ => id) services _ _ _
  | socialAuthorize host provider =>
      refine .bind ?_ fun _ => .pure _
      exact SocialAuthService.authorizeAsync_frame (stores _) host provider
  | socialCallback host http answers provider query =>
      refine .bind ?_ fun _ => .pure _
      exact SocialAuthService.callbackAsync_frame (fun _ _ => rfl) (fun _ _ => rfl) (consumes _ _)
        services (social_methods services) host http answers provider query
  | passkeyOptions userId =>
      refine .bind ?_ fun _ => .pure _
      exact PasskeyService.registrationOptionsAsync_frame (stores _) userId
  | passkeyRegistration userId request label =>
      exact .bind (PasskeyService.completeRegistrationAsync_keepsMethods userId request label)
        fun _ => .pure _
  | passkeyRemoval userId credentialId =>
      exact PasskeyService.removeAsync_keepsMethods userId credentialId
  | unlink userId accountId => exact UserService.unlinkAccountAsync_keepsMethods userId accountId
  | changePassword http userId currentSessionId currentPassword newPassword =>
      exact UserService.changePasswordAsync_frame passwords_methods (fun _ _ => rfl) userId
        currentSessionId currentPassword newPassword
  | requestReset http email => exact PasswordResetService.requestAsync_frame (stores _) http email
  | confirmReset http token newPassword =>
      exact PasswordResetService.confirmAsync_frame passwords_methods (fun _ _ => rfl)
        (consumes _ _)
        token newPassword

/-- Operations that have not begun. -/
def operatingCredentials (services : Services) (fido2 : Fido2)
    (operations : List CredentialOperation) (start : State) :
    Pool Input World Event AppException Unit where
  shared := start
  calls := operations.map (·.program services fido2)

/-- A package that accepts every attestation, with its text as the credential id. -/
def Fido2.attesting : Fido2 where
  makeNewCredential raw _ _ := some ⟨raw, "public", 0, 0, []⟩
  makeAssertion _ := none

/-- A user who signed up with Google adds a passkey, unlinks the account and removes the passkey. -/
def socialUser : Pool Input World Event AppException Unit :=
  operatingCredentials .sample .attesting
    [.socialAuthorize .sample "Google",
      .socialCallback .sample {} (.sample ⟨"7", some "ada@example.test", true, some "Ada"⟩) "Google"
        { code := some "code", state := some "t" },
      .passkeyOptions 3, .passkeyRegistration 3 ⟨some "key", some "tttttttttttt", some "key"⟩ none,
      .unlink 3 5, .passkeyRemoval 3 (some "key")]
    (Shared.initial seededWorld ⟨90, false⟩)

/-- Up to the passkey. -/
def passkeyAdded : List (ℕ × Input) :=
  callSteps 0 4 ++ callSteps 1 30 ++ callSteps 2 10 ++ callSteps 3 12

end AuthStartpack
