import AuthStartpack.Services.UserFrames
import AuthStartpack.SocialAuth.Callbacks
import AuthStartpack.Validators.Users.PasswordRequestValidators

/-!
Owns the password policy of the stored passwords. Registration checks a password
against the address of its account; a reset and a change check the password
alone, so that every stored password meets the policy as long as no reset and no
change brings one that contains the local part of the address.
-/

namespace AuthStartpack

/-- The full policy, for a password of the account with this address. -/
structure PasswordPolicy (casing : Casing) (email password : String) : Prop where
  strong : StrongPassword casing password
  spares : ¬ ContainsLocalPart casing email password

section Policy

variable (casing : Casing) (services : Services)

/-- Every stored hash is one of a password that meets the policy for its account. -/
def Db.HoldsPolicy (db : Db) : Prop :=
  ∀ user ∈ db.users, ∀ hash, user.passwordHash = some hash → ∃ password salt,
    hash = services.passwordHasher.hash password salt ∧ PasswordPolicy casing user.email password

/-- Users and verification tokens stay, users under their address and tokens with their user, and
the policy is kept. -/
structure PolicyKept (before after : Db) : Prop where
  users : ∀ user ∈ before.users, ∃ later ∈ after.users, later.id = user.id ∧
    later.email = user.email
  tokens : ∀ token ∈ before.verificationTokens, ∃ later ∈ after.verificationTokens,
    later.tokenHash = token.tokenHash ∧ later.userId = token.userId
  keyed : Table.Keyed User.id before.users → Table.Keyed User.id after.users
  policy : Table.Keyed User.id before.users → before.HoldsPolicy casing services →
    after.HoldsPolicy casing services

end Policy

namespace PolicyKept

variable {casing : Casing} {services : Services}

theorem of_users {before after : Db} (users : after.users = before.users)
    (tokens : ∀ token ∈ before.verificationTokens, ∃ later ∈ after.verificationTokens,
      later.tokenHash = token.tokenHash ∧ later.userId = token.userId) :
    PolicyKept casing services before after where
  users user member := ⟨user, users ▸ member, rfl, rfl⟩
  tokens := tokens
  keyed keyed := users ▸ keyed
  policy _ holds := by
    unfold Db.HoldsPolicy
    rw [users]
    exact holds

theorem refl (db : Db) : PolicyKept casing services db db :=
  of_users rfl fun token member => ⟨token, member, rfl, rfl⟩

theorem trans {first second third : Db} (early : PolicyKept casing services first second)
    (late : PolicyKept casing services second third) : PolicyKept casing services first third where
  users user member := by
    obtain ⟨middle, middleMember, sameId, sameEmail⟩ := early.users user member
    obtain ⟨later, laterMember, laterId, laterEmail⟩ := late.users middle middleMember
    exact ⟨later, laterMember, laterId.trans sameId, laterEmail.trans sameEmail⟩
  tokens token member := by
    obtain ⟨middle, middleMember, sameHash, sameUser⟩ := early.tokens token member
    obtain ⟨later, laterMember, laterHash, laterUser⟩ := late.tokens middle middleMember
    exact ⟨later, laterMember, laterHash.trans sameHash, laterUser.trans sameUser⟩
  keyed keyed := late.keyed (early.keyed keyed)
  policy keyed holds := late.policy (early.keyed keyed) (early.policy keyed holds)

/-- A registration with a password that meets the policy. -/
theorem of_registered {before : Db} {user : User} {now : Instant} {userRoles : List UserRole}
    {added : List VerificationToken} {password : String} {salt : ℕ}
    (fresh : ∀ other ∈ before.users, other.id ≠ user.id)
    (hashed : user.passwordHash = some (services.passwordHasher.hash password salt))
    (policy : PasswordPolicy casing user.email password) :
    PolicyKept casing services before
      { before with
        users := before.users ++ [{ user with createdAt := now, updatedAt := now }]
        userRoles
        verificationTokens := before.verificationTokens ++ added } where
  users other member := ⟨other, List.mem_append_left _ member, rfl, rfl⟩
  tokens token member := ⟨token, List.mem_append_left _ member, rfl, rfl⟩
  keyed keyed := keyed.append fun other member => fresh other member
  policy _ holds other member hash stored := by
    rcases List.mem_append.mp member with old | new
    · exact holds other old hash stored
    · obtain rfl := List.mem_singleton.mp new
      have same : services.passwordHasher.hash password salt = hash :=
        Option.some.inj (hashed.symm.trans stored)
      exact ⟨password, salt, same.symm, policy⟩

/-- A new password that meets the policy for the user as read. -/
theorem of_newPassword {before after : Db} {now : Instant} {original : User} {password : String}
    {salt : ℕ} {stamp : Guid}
    (saved : before.updateUser now original { original with
      passwordHash := some (services.passwordHasher.hash password salt)
      securityStamp := stamp } = .ok after)
    (present : ∃ stored ∈ before.users, stored.id = original.id ∧ stored.email = original.email)
    (policy : PasswordPolicy casing original.email password) :
    PolicyKept casing services before after := by
  obtain ⟨-, rfl⟩ := Db.updateUser_eq_ok.mp saved
  let current := { original with
    passwordHash := some (services.passwordHasher.hash password salt)
    securityStamp := stamp }
  have email : ∀ row, (original.merge current now row).email = row.email :=
    fun row => changed_self original.email row.email
  constructor
  case users =>
    intro user member
    cases hit : decide (user.id = original.id) && decide (current ≠ original) with
    | false => exact ⟨user, Table.mem_updateWhere_of_not member hit, rfl, rfl⟩
    | true => exact ⟨_, Table.mem_updateWhere_of_hit member hit, rfl, email user⟩
  case tokens =>
    intro token member
    exact ⟨token, member, rfl, rfl⟩
  case keyed =>
    intro keyed
    exact keyed.updateWhere fun _ => rfl
  case policy =>
    intro keyed holds user member hash stored
    rcases Table.mem_updateWhere_cases member with ⟨old, -⟩ | ⟨old, oldMember, hit, rfl⟩
    · exact holds user old hash stored
    · obtain ⟨row, rowMember, sameId, sameEmail⟩ := present
      have isOld : row = old := by
        apply keyed.eq_of_key rowMember oldMember
        simp only [Bool.and_eq_true, decide_eq_true_eq] at hit
        exact sameId.trans hit.1.symm
      rw [email old]
      -- The merge writes the hash unless it is the one that was read.
      have merged : (original.merge current now old).passwordHash =
        changed original.passwordHash current.passwordHash old.passwordHash := rfl
      rw [merged, changed] at stored
      split at stored
      · exact holds old oldMember hash stored
      · refine ⟨password, salt, (Option.some.inj stored).symm, ?_⟩
        rw [← isOld, sameEmail]
        exact policy

end PolicyKept

/-! ### Operations -/

/-- The requests on passwords, each past its validator. -/
inductive PasswordOperation (casing : Casing)
  | register (http : HttpContext) (request : RegisterRequest)
      (valid : RegisterRequestValidator.validate casing request = [])
  | requestReset (http : HttpContext) (request : PasswordResetRequest)
      (valid : PasswordResetRequestValidator.validate request = [])
  | confirmReset (http : HttpContext) (request : PasswordResetConfirmRequest)
      (valid : PasswordResetConfirmRequestValidator.validate casing request = [])
  | changePassword (http : HttpContext) (userId currentSessionId : Guid)
      (request : ChangePasswordRequest)
      (valid : ChangePasswordRequestValidator.validate casing request = [])

namespace PasswordOperation

variable {casing : Casing} (services : Services)

/-- The operation, without its answer. -/
def program : PasswordOperation casing → Action Unit
  | register http request _ => do
      let _ ← RegistrationService.registerAsync services http request
  | requestReset http request _ => PasswordResetService.requestAsync services http request.email
  | confirmReset http request _ =>
      PasswordResetService.confirmAsync services http request.token request.newPassword
  | changePassword http userId currentSessionId request _ =>
      UserService.changePasswordAsync services http userId currentSessionId request.currentPassword
        request.newPassword

/-- A change that proves the current password, and a reset that consumes its token, bring a
password that does not contain the local part of the address of their user. -/
def Spares (db : Db) (events : List Event) : PasswordOperation casing → Prop
  | register .. => True
  | requestReset .. => True
  | confirmReset _ request _ => ∀ event ∈ events, match event with
      | .verificationTokenConsumed token .passwordReset =>
          ∀ userId ∈ token.userId, ∃ user ∈ db.users,
            user.id = userId ∧ ¬ ContainsLocalPart casing user.email request.newPassword
      | _ => True
  | changePassword _ userId _ request _ =>
      ∀ user ∈ db.users, user.id = userId →
        user.passwordHash.any (services.passwordHasher.verify request.currentPassword) = true →
          ¬ ContainsLocalPart casing user.email request.newPassword

instance (db : Db) (events : List Event) (op : PasswordOperation casing) :
    Decidable (op.Spares services db events) := by
  unfold Spares
  split
  · infer_instance
  · infer_instance
  · refine @List.decidableBAll _ _ (fun event => ?_) _
    split <;> infer_instance
  · infer_instance

end PasswordOperation

section Concurrency

variable {casing : Casing} (services : Services) (operations : List (PasswordOperation casing))

/-- No operation brings a password that contains the local part of its user's address. -/
def SparesLocalParts (state : State) (call : ℕ) (_ : Input) (events : List Event) : Prop :=
  ∀ op ∈ operations[call]?, op.Spares services state.store.db events

instance (state : State) (call : ℕ) (input : Input) (events : List Event) :
    Decidable (SparesLocalParts services operations state call input events) :=
  inferInstanceAs (Decidable (∀ op ∈ operations[call]?, op.Spares services state.store.db events))

/-- The policy is kept from one state to another. -/
def StatePolicyKept (casing : Casing) (before after : State) : Prop :=
  PolicyKept casing services before.store.db after.store.db

/-- Any interleaving of such operations. -/
def Law.sparing : Law Input World Event :=
  .concurrent (SparesLocalParts services operations) (StatePolicyKept services casing)

instance : Frames (.sparing services operations) (StatePolicyKept services casing)
    (fun db => (db.users, db.verificationTokens)) fun _ => False := by
  refine Frames.concurrent (fun _ => .refl _) (fun _ _ _ => .trans) (fun _ _ => rfl) ?_
  intro state call input world events _ same _ _
  obtain ⟨users, tokens⟩ := Prod.mk.inj same
  refine .of_users users ?_
  intro token member
  exact ⟨token, tokens ▸ member, rfl, rfl⟩

variable {services operations}

namespace Keeps

/-- A save that keeps the policy, whatever is stored. -/
theorem sparing_saveChanges {changes : Instant → Db → Except AppException Db}
    {events : Db → List Event}
    (keeps : ∀ now db after, changes now db = .ok after → PolicyKept casing services db after) :
    Keeps (.sparing services operations) (StatePolicyKept services casing)
      (Action.saveChanges changes events) := by
  refine .saveChanges ?_
  intro call start current input db relied saved _
  have written : PolicyKept casing services current.store.db db := keeps _ _ _ saved
  exact ⟨written, relied.1.trans written⟩

end Keeps

theorem store_sparing (userId : Option Guid) (type : VerificationTokenType) (lifetime : Duration)
    (report : VerificationToken → List Event) :
    Keeps (.sparing services operations) (StatePolicyKept services casing)
      (VerificationTokens.store services userId type lifetime report) := by
  apply Keeps.bind .draw
  intro drawn
  apply Keeps.bind .utcNow
  intro now
  apply Keeps.bind .draw
  intro _
  apply Keeps.bind
  · refine .sparing_saveChanges ?_
    intro now db after saved
    obtain ⟨-, rfl⟩ := Db.insertVerificationToken_eq_ok.mp saved
    refine .of_users rfl ?_
    intro token member
    exact ⟨token, List.mem_append_left _ member, rfl, rfl⟩
  intro _
  exact .pure _

theorem RegistrationService.addUser_policyKept {user : User} {token : VerificationToken}
    {now : Instant} {db after : Db} {password : String} {salt : ℕ}
    (saved : addUser services.lower user token now db = .ok after)
    (hashed : user.passwordHash = some (services.passwordHasher.hash password salt))
    (policy : PasswordPolicy casing user.email password) :
    PolicyKept casing services db after := by
  obtain ⟨-, -, saved⟩ := bind_eq_ok.mp saved
  obtain ⟨withUser, userSaved, saved⟩ := bind_eq_ok.mp saved
  obtain ⟨withRole, roleSaved, saved⟩ := bind_eq_ok.mp saved
  obtain ⟨⟨fresh, -⟩, rfl⟩ := Db.insertUser_eq_ok.mp userSaved
  obtain ⟨-, rfl⟩ := Db.insertUserRole_eq_ok.mp roleSaved
  obtain ⟨-, rfl⟩ := Db.insertVerificationToken_eq_ok.mp saved
  exact .of_registered fresh hashed policy

theorem RegistrationService.registerAsync_sparing (http : HttpContext) {request : RegisterRequest}
    (valid : RegisterRequestValidator.validate casing request = []) :
    Keeps (.sparing services operations) (StatePolicyKept services casing)
      (registerAsync services http request) := by
  have stores : ∀ userId, Keeps (.sparing services operations) (StatePolicyKept services casing)
      (VerificationTokens.store services userId .passwordReset resetTokenLifetime
        fun token => [.verificationTokenIssued token]) := fun userId => store_sparing _ _ _ _
  obtain ⟨strong, spares⟩ := RegisterRequestValidator.strong_of_passed valid
  refine .bind (.drawReporting id) fun salt => .bind (.queryOrThrow _) fun existing => ?_
  cases existing with
  | some user => exact handleExistingAsync_frame stores (fun _ => id) user
  | none =>
      apply Keeps.bind .draw
      intro drawn
      apply Keeps.bind .draw
      intro _
      apply Keeps.bind .draw
      intro _
      apply Keeps.bind .draw
      intro _
      apply Keeps.bind .utcNow
      intro now
      refine createAsync_frame stores (fun _ => id) ?_ _
      apply Keeps.sparing_saveChanges
      intro now db after saved
      have policy : PasswordPolicy casing (trim request.email) request.password := ⟨strong, spares⟩
      exact addUser_policyKept saved rfl policy

/-- The save of a new password for a user as read before, and what follows. -/
theorem newPassword_sparing {call : ℕ} {seen current : State} {original : User}
    {password : String} {stamp : Guid} {salt : ℕ} {rest : Action Unit}
    (reached : StatePolicyKept services casing seen current)
    (member : original ∈ seen.store.db.users)
    (policy : PasswordPolicy casing original.email password)
    (keeps : Keeps (.sparing services operations) (StatePolicyKept services casing) rest) :
    (Action.saveChanges (fun now db => db.updateUser now original { original with
        passwordHash := some (services.passwordHasher.hash password salt)
        securityStamp := stamp }) >>= fun _ => rest).wp (.sparing services operations) call
      (fun _ after => StatePolicyKept services casing seen after) current := by
  have calm : Calm (.sparing services operations) call (StatePolicyKept services casing) :=
    inferInstance
  have saves : Program.wp (.sparing services operations) call
      (fun _ after => StatePolicyKept services casing seen after)
      (Action.saveChanges fun now db => db.updateUser now original { original with
        passwordHash := some (services.passwordHasher.hash password salt)
        securityStamp := stamp }) current := by
    refine Action.wp_saveChanges calm ?_ ?_
    · intro middle input db later saved _
      have within : StatePolicyKept services casing seen middle := reached.trans later
      have written : PolicyKept casing services middle.store.db db :=
        .of_newPassword saved (within.users original member) policy
      exact ⟨written, within.trans written⟩
    · intro middle later _ _ early late _
      exact reached.trans (early.trans late)
  refine Program.wp_bind_of saves ?_ ?_
  · intro _ middle kept
    exact keeps.after kept
  · intro _ middle kept
    exact kept

theorem UserService.changePasswordAsync_sparing {http : HttpContext}
    {userId currentSessionId : Guid}
    {request : ChangePasswordRequest}
    {valid : ChangePasswordRequestValidator.validate casing request = []} {call : ℕ}
    (found : operations[call]? = some (.changePassword http userId currentSessionId request valid))
    (start : State) :
    (changePasswordAsync services http userId currentSessionId request.currentPassword
      request.newPassword).wp (.sparing services operations) call
        (fun _ after => StatePolicyKept services casing start after) start := by
  have calm : Calm (.sparing services operations) call (StatePolicyKept services casing) :=
    inferInstance
  simp only [changePasswordAsync, Program.wp_bind]
  -- The read is where the current password is proved.
  rw [Action.wp_queryOrThrow]
  intro current relied input admitted
  have spares := admitted _ found
  obtain ⟨kept, stays⟩ := calm.quiet current input current.store admitted (.refl _)
  rw [Shared.advance_silent] at kept stays
  refine ⟨kept, ?_⟩
  have reached := calm.trans _ _ _ (calm.rely _ _ relied) stays
  cases read : Action.singleOrDefault (current.store.db.users.filter (·.id = userId)) with
  | error exception => exact reached
  | ok answer =>
  simp only [Program.andThen_ok, Program.wp_bind, Action.wp_orThrow]
  cases answer with
  | none => exact reached
  | some user =>
  obtain ⟨member, own⟩ := Action.mem_of_singleOrDefault read
  simp only
  by_cases proved : user.passwordHash.any (services.passwordHasher.verify request.currentPassword)
  case neg =>
    simp only [proved]
    exact reached
  case pos =>
    have policy : PasswordPolicy casing user.email request.newPassword :=
      ⟨ChangePasswordRequestValidator.strong_of_passed valid,
        spares user member (of_decide_eq_true own) proved⟩
    have passes : ¬ (!user.passwordHash.any
        (services.passwordHasher.verify request.currentPassword)) = true := by simp [proved]
    rw [if_neg passes]
    refine Program.wp_mono ?_ fun _ _ later => calm.trans _ _ _ reached later
    refine Keeps.draw.bind_wp (calm.refl _) fun salt later drawn => ?_
    refine Keeps.draw.bind_wp drawn fun stamp later drawn => ?_
    refine (SessionService.updateSessions_frame (fun _ _ => rfl) _ _).bind_wp drawn
      fun _ later updated => ?_
    refine newPassword_sparing updated member policy ?_
    exact .bind (SessionService.revokeAllForUserAsync_frame (fun _ _ => rfl) _ _ _) fun _ =>
      .bind (.logAsync _ _ _) fun _ => .notifyAsync _ _ _

/-- A consumed token is still there under its user. -/
theorem consumed_owner {hash : String} {consumed found : Db} {token : VerificationToken}
    {userId : Option Guid}
    (member : token ∈ consumed.verificationTokens) (hashed : token.tokenHash = hash)
    (kept : PolicyKept casing services consumed found)
    (read : Action.single ((found.verificationTokens.filter (·.tokenHash = hash)).map (·.userId)) =
      .ok userId) : token.userId = userId := by
  obtain ⟨later, laterMember, laterHash, laterUser⟩ := kept.tokens token member
  have listed : later.userId ∈
      (found.verificationTokens.filter (·.tokenHash = hash)).map (·.userId) := by
    apply List.mem_map_of_mem
    exact List.mem_filter.mpr ⟨laterMember, decide_eq_true (laterHash.trans hashed)⟩
  rw [Action.single_eq_ok.mp read] at listed
  exact laterUser.symm.trans (List.mem_singleton.mp listed)

theorem PasswordResetService.confirmAsync_sparing {http : HttpContext}
    {request : PasswordResetConfirmRequest}
    {valid : PasswordResetConfirmRequestValidator.validate casing request = []} {call : ℕ}
    (found : operations[call]? = some (.confirmReset http request valid)) (start : State) :
    (confirmAsync services http request.token request.newPassword).wp (.sparing services operations)
      call (fun _ after => StatePolicyKept services casing start after) start := by
  have calm : Calm (.sparing services operations) call (StatePolicyKept services casing) :=
    inferInstance
  refine Keeps.utcNow.bind_wp (calm.refl _) fun now began reached => ?_
  let pred := VerificationTokens.consumable (services.tokenGenerator.hash request.token)
    .passwordReset now fun _ => true
  -- A consumption finds a token whose user is spared.
  let owned (consumed : ℕ) (db : Db) : Prop := consumed ≠ 0 → ∃ token ∈ db.verificationTokens,
    token.tokenHash = services.tokenGenerator.hash request.token ∧ ∀ userId ∈ token.userId,
      ∃ user ∈ db.users, user.id = userId ∧
        ¬ ContainsLocalPart casing user.email request.newPassword
  have consumes : Program.wp (.sparing services operations) call
      (fun outcome after => StatePolicyKept services casing start after ∧
        ∀ consumed, outcome = .ok consumed → owned consumed after.store.db)
      (VerificationTokens.consume (services.tokenGenerator.hash request.token) .passwordReset now
        (fun _ => true) .passwordReset) began := by
    refine VerificationTokens.wp_consume calm ?_
    intro current input later hits events marked consumed admitted
    have written : StatePolicyKept services casing current consumed := by
      refine .of_users rfl ?_
      intro token member
      cases hit : pred token with
      | false => exact ⟨token, Table.mem_updateWhere_of_not member hit, rfl, rfl⟩
      | true => exact ⟨_, Table.mem_updateWhere_of_hit member hit, rfl, rfl⟩
    refine ⟨written, calm.trans _ _ _ (calm.trans _ _ _ reached later) written, ?_⟩
    rintro _ ⟨⟩ some
    obtain ⟨token, hit⟩ := List.exists_mem_of_length_pos (Nat.pos_of_ne_zero some)
    obtain ⟨member, consumable⟩ := List.mem_filter.mp hit
    refine ⟨_, Table.mem_updateWhere_of_hit member consumable, ?_, ?_⟩
    · exact (VerificationTokens.consumable_iff.mp consumable).1
    · exact admitted _ found _ (List.mem_map_of_mem hit)
  refine Program.wp_bind_of consumes ?_ ?_
  · rintro consumed current ⟨within, owner⟩
    by_cases none : consumed = 0
    case pos =>
      rw [if_pos none]
      exact within
    case neg =>
    rw [if_neg none]
    obtain ⟨token, member, hashed, spared⟩ := owner _ rfl none
    refine Program.wp_mono ?_ fun _ _ later => calm.trans _ _ _ within later
    simp only [Program.wp_bind]
    refine Action.calm_queryOrThrow calm ?_
    intro looked kept
    cases read : Action.single ((looked.store.db.verificationTokens.filter
        (·.tokenHash = services.tokenGenerator.hash request.token)).map (·.userId)) with
    | error exception => exact kept
    | ok owner =>
    simp only [Program.andThen_ok, Program.wp_bind, Action.wp_orThrow]
    have isOwner := consumed_owner member hashed kept read
    cases owner with
    | none => exact kept
    | some userId =>
    obtain ⟨user, userMember, own, spares⟩ := spared userId isOwner
    simp only
    refine Action.calm_queryOrThrow calm ?_
    intro loaded since
    have later := calm.trans _ _ _ kept since
    cases single : Action.single (loaded.store.db.users.filter (·.id = userId)) with
    | error exception => exact later
    | ok row =>
    obtain ⟨rowMember, rowId⟩ := Action.mem_of_single single
    have sameEmail : row.email = user.email := by
      obtain ⟨stored, storedMember, storedId, storedEmail⟩ := later.users user userMember
      have listed : stored ∈ loaded.store.db.users.filter (·.id = userId) :=
        List.mem_filter.mpr ⟨storedMember, decide_eq_true (storedId.trans own)⟩
      rw [Action.single_eq_ok.mp single] at listed
      rw [← List.mem_singleton.mp listed]
      exact storedEmail
    have policy : PasswordPolicy casing row.email request.newPassword :=
      ⟨PasswordResetConfirmRequestValidator.strong_of_passed valid, sameEmail ▸ spares⟩
    rw [Program.andThen_ok]
    refine Program.wp_mono ?_ fun _ _ saved => calm.trans _ _ _ later saved
    refine Keeps.draw.bind_wp (calm.refl _) fun salt _ drawn => ?_
    refine Keeps.draw.bind_wp drawn fun stamp _ drawn => ?_
    refine newPassword_sparing drawn rowMember policy ?_
    refine .bind (SessionService.revokeAllForUserAsync_frame (fun _ _ => rfl) _ _ _) fun _ =>
      .bind (.logAsync _ _ _) fun _ => .bind (.notifyAsync _ _ _) fun _ => ?_
    exact .ite (.logAsync _ _ _) (.pure _)
  · rintro exception current ⟨within, -⟩
    exact within

theorem PasswordOperation.sparing {call : ℕ} {op : PasswordOperation casing}
    (found : operations[call]? = some op) (start : State) :
    (op.program services).wp (.sparing services operations) call
      (fun _ after => StatePolicyKept services casing start after) start := by
  have stores : StoresKept (.sparing services operations) (StatePolicyKept services casing) services
      .passwordReset := fun userId lifetime => store_sparing userId _ lifetime _
  cases op with
  | register http request valid =>
      have keeps : Keeps (.sparing services operations) (StatePolicyKept services casing)
          ((PasswordOperation.register http request valid).program services) :=
        .bind (RegistrationService.registerAsync_sparing http valid) fun _ => .pure _
      exact keeps call start
  | requestReset http request _ =>
      exact PasswordResetService.requestAsync_frame stores http request.email call start
  | confirmReset http request valid => exact PasswordResetService.confirmAsync_sparing found start
  | changePassword http userId currentSessionId request valid =>
      exact UserService.changePasswordAsync_sparing found start

end Concurrency

section Runs

variable {casing : Casing} {services : Services} {operations : List (PasswordOperation casing)}

/-- Operations that have not begun. -/
def settingPasswords (services : Services) (operations : List (PasswordOperation casing))
    (start : State) : Pool Input World Event AppException Unit where
  shared := start
  calls := operations.map (·.program services)

/-- In every interleaving in which no reset and no change brings a password that contains the local
part of its user's address, every stored password meets the policy. -/
theorem holdsPolicy_of_sparing {start : State} {schedule : List (ℕ × Input)}
    (keyed : Table.Keyed User.id start.store.db.users)
    (holds : start.store.db.HoldsPolicy casing services)
    (spares : (settingPasswords services operations start).Admitted
      (SparesLocalParts services operations) schedule) :
    ((settingPasswords services operations start).run schedule).shared.store.db.HoldsPolicy casing
      services := by
  have refl : ∀ state, StatePolicyKept services casing state state := fun _ => .refl _
  have trans : ∀ first second third, StatePolicyKept services casing first second →
      StatePolicyKept services casing second third → StatePolicyKept services casing first third :=
    fun _ _ _ => .trans
  have verified : (settingPasswords services operations start).Verified
      (SparesLocalParts services operations) (StatePolicyKept services casing)
      fun _ _ _ => True := by
    refine Pool.verified_of_wp refl ?_
    intro call program found
    simp only [settingPasswords, List.getElem?_map, Option.map_eq_some_iff] at found
    obtain ⟨op, isOp, rfl⟩ := found
    refine Program.wp_mono (PasswordOperation.sparing isOp start) ?_
    intro _ _ _
    trivial
  obtain ⟨kept, -⟩ := Pool.run_wp refl trans verified spares
  exact kept.policy keyed holds

end Runs

/-! ### Three passwords -/

section Passed

variable {propertyName password : String}

/-- A password longer than everything on the deny list. -/
theorem password_passed (shown : isNullOrWhiteSpace (some password) = false)
    (long : 26 < password.toList.length)
    (fits : 12 ≤ utf16Length password ∧ utf16Length password ≤ 256)
    (unpredictable : PasswordRules.isPredictablePattern .ascii password = false) :
    PasswordRules.password .ascii propertyName password = [] :=
  PasswordRules.password_eq_nil.mpr
    ⟨shown, fits.1, fits.2, PasswordDenyList.contains_of_long long, unpredictable⟩

theorem registration_passed : RegisterRequestValidator.validate .ascii
    { email := "lovelace@example.test", password := "correct-horse-battery-staple" } = [] := by
  have passed : PasswordRules.password .ascii "Password" "correct-horse-battery-staple" = [] := by
    apply password_passed <;> decide +kernel
  rw [RegisterRequestValidator.validate, passed]
  decide +kernel

theorem sparingChange_passed : ChangePasswordRequestValidator.validate .ascii
    ⟨"correct-horse-battery-staple", "battery-staple-correct-horse"⟩ = [] := by
  have passed :
      PasswordRules.password .ascii "NewPassword" "battery-staple-correct-horse" = [] := by
    apply password_passed <;> decide +kernel
  rw [ChangePasswordRequestValidator.validate, passed]
  decide +kernel

theorem containingChange_passed : ChangePasswordRequestValidator.validate .ascii
    ⟨"correct-horse-battery-staple", "my-horse-lovelace-and-a-staple"⟩ = [] := by
  have passed :
      PasswordRules.password .ascii "NewPassword" "my-horse-lovelace-and-a-staple" = [] := by
    apply password_passed <;> decide +kernel
  rw [ChangePasswordRequestValidator.validate, passed]
  decide +kernel

theorem reset_passed : PasswordResetConfirmRequestValidator.validate .ascii
    ⟨"tttttttttt", "staple-correct-horse-battery"⟩ = [] := by
  have passed :
      PasswordRules.password .ascii "NewPassword" "staple-correct-horse-battery" = [] := by
    apply password_passed <;> decide +kernel
  rw [PasswordResetConfirmRequestValidator.validate, passed]
  decide +kernel

end Passed

/-- Lovelace registers, changes the password to this one and then resets it. -/
def lovelaceOperations (changed : String)
    (passed : ChangePasswordRequestValidator.validate .ascii
      ⟨"correct-horse-battery-staple", changed⟩ = []) : List (PasswordOperation .ascii) :=
  [.register {} _ registration_passed, .changePassword {} 2 0 _ passed,
    .requestReset {} ⟨"lovelace@example.test"⟩ (by decide +kernel),
    .confirmReset {} _ reset_passed]

def sparingChange : List (PasswordOperation .ascii) := lovelaceOperations _ sparingChange_passed

def containingChange : List (PasswordOperation .ascii) :=
  lovelaceOperations _ containingChange_passed

def passwordsStart : State := Shared.initial seededWorld ⟨90, false⟩

/-- Up to the reset. -/
def passwordChanged : List (ℕ × Input) := callSteps 0 14 ++ callSteps 1 12

theorem passwordsStart_holdsPolicy : passwordsStart.store.db.HoldsPolicy .ascii .sample :=
  fun _ member => nomatch member

set_option maxRecDepth 40000 in
/-- Three passwords without `lovelace`. -/
theorem holdsPolicy_of_sparing_sample :
    ((settingPasswords .sample sparingChange passwordsStart).run
      (passwordChanged ++ (callSteps 2 10 ++ callSteps 3 14))).shared.store.db.HoldsPolicy .ascii
        .sample := by
  have spares : (settingPasswords .sample sparingChange passwordsStart).Admitted
      (SparesLocalParts .sample sparingChange)
      (passwordChanged ++ (callSteps 2 10 ++ callSteps 3 14)) :=
    Pool.admitted_of_admitted? (by decide +kernel)
  exact holdsPolicy_of_sparing List.nodup_nil passwordsStart_holdsPolicy spares

/-- The password that a hash of the sample carries. -/
theorem sample_hash_carries {password hash : String} {salt : ℕ}
    (same : hash = Services.sample.passwordHasher.hash password salt) :
    hash.toList.dropWhile (· ≠ '$') = '$' :: password.toList := by
  subst same
  simp only [Services.sample, String.toList_append, String.toList_ofList]
  induction salt with
  | zero => rfl
  | succ salt inductionHypothesis => exact inductionHypothesis

/-- `my-horse-lovelace-and-a-staple` contains the local part of the address it is stored under. -/
theorem lovelace_contained {db : Db}
      (stored : db.users.map (fun user => (user.email, user.passwordHash)) =
      [("lovelace@example.test", some "sssssss$my-horse-lovelace-and-a-staple")]) :
    ¬ db.HoldsPolicy .ascii .sample := by
  intro holds
  have listed : ("lovelace@example.test", some "sssssss$my-horse-lovelace-and-a-staple") ∈
      db.users.map fun user => (user.email, user.passwordHash) := by
    rw [stored]
    exact List.mem_cons_self
  obtain ⟨user, member, columns⟩ := List.mem_map.mp listed
  obtain ⟨email, hashed⟩ := Prod.mk.inj columns
  obtain ⟨password, salt, same, policy⟩ := holds user member _ hashed
  have carries : "sssssss$my-horse-lovelace-and-a-staple".toList.dropWhile (· ≠ '$') =
      '$' :: "my-horse-lovelace-and-a-staple".toList := by decide +kernel
  rw [sample_hash_carries same] at carries
  have isPassword : password = "my-horse-lovelace-and-a-staple" :=
    String.toList_injective (List.cons.inj carries).2
  rw [email, isPassword] at policy
  have contains :
      ContainsLocalPart .ascii "lovelace@example.test" "my-horse-lovelace-and-a-staple" := by
    decide +kernel
  exact policy.spares contains

set_option maxRecDepth 40000 in
/-- A change to `my-horse-lovelace-and-a-staple` passes the validator and is stored. -/
theorem policy_broken :
    passwordsStart.store.db.HoldsPolicy .ascii .sample ∧
      ¬ ((settingPasswords .sample containingChange passwordsStart).run
        passwordChanged).shared.store.db.HoldsPolicy .ascii .sample :=
  ⟨passwordsStart_holdsPolicy, lovelace_contained (by decide +kernel)⟩

end AuthStartpack
