import Mathlib
import AuthStartpack.Services.Auth.RegistrationService
import AuthStartpack.Services.FreshKeys
import AuthStartpack.Services.Users.UserService
import AuthStartpack.SocialAuth.Takeover

/-!
Owns the completion of social logins under concurrency. A callback whose state
was accepted adds its user in one save, and that save is all that can fail: when
somebody has taken the address or the account since it was looked up, when the
placeholder is taken, and when the provider sends a value that does not fit its
column.
-/

namespace AuthStartpack

/-- The provider, the subject and the user that an account links. -/
def Account.link (account : Account) : String × String × Guid :=
  (account.provider, account.providerAccountId, account.userId)

/-- The constraints of the schema that the save of a user and a sign-in depend on. -/
structure Constraints (db : Db) : Prop where
  users : Table.Keyed User.id db.users
  accounts : Table.Keyed (fun account => (account.provider, account.providerAccountId)) db.accounts
  owners : ∀ account ∈ db.accounts, ∃ user ∈ db.users, user.id = account.userId
  assigned : ∀ row ∈ db.userRoles, ∃ user ∈ db.users, user.id = row.userId
  role : ∃ role ∈ db.roles, role.id = RoleSeed.userRoleId
  sessions : Table.Keyed Session.id db.sessions

/-- A save that was to add this link has been reported. -/
def Shared.Reports (state : State) (link : String × String × Guid) : Prop :=
  ∃ entry ∈ state.journal, ∃ user account lookups,
    entry.event = .socialSignUp user account lookups ∧ account.link = link

/-- What every step of a registration, a social login or a change of the user keeps. -/
structure Links (before after : State) : Prop where
  constraints : Constraints before.store.db → Constraints after.store.db
  users : ∀ user ∈ before.store.db.users, ∃ later ∈ after.store.db.users, later.id = user.id
  sessions : ∀ session ∈ before.store.db.sessions, session ∈ after.store.db.sessions
  links : ∀ account ∈ after.store.db.accounts,
    (∃ old ∈ before.store.db.accounts, old.link = account.link) ∨ after.Reports account.link
  journal : before.journal <+: after.journal

theorem Shared.Reports.later {before after : State} {link : String × String × Guid}
    (reports : before.Reports link) (journal : before.journal <+: after.journal) :
    after.Reports link := by
  obtain ⟨entry, member, reported⟩ := reports
  exact ⟨entry, journal.subset member, reported⟩

namespace Links

theorem refl (state : State) : Links state state where
  constraints := id
  users user member := ⟨user, member, rfl⟩
  sessions _ member := member
  links account member := .inl ⟨account, member, rfl⟩
  journal := List.prefix_refl _

theorem trans (first second third : State) (early : Links first second)
    (late : Links second third) : Links first third where
  constraints holds := late.constraints (early.constraints holds)
  users user member := by
    obtain ⟨middle, middleMember, same⟩ := early.users user member
    obtain ⟨later, laterMember, laterSame⟩ := late.users middle middleMember
    exact ⟨later, laterMember, laterSame.trans same⟩
  sessions session member := late.sessions session (early.sessions session member)
  links account member := by
    rcases late.links account member with ⟨middle, middleMember, same⟩ | reported
    · rcases early.links middle middleMember with ⟨old, oldMember, oldSame⟩ | reported
      · exact .inl ⟨old, oldMember, oldSame.trans same⟩
      · exact .inr (same ▸ reported.later late.journal)
    · exact .inr reported
  journal := early.journal.trans late.journal

/-- The tables of `Constraints`. -/
def tables (db : Db) : List User × List Account × List UserRole × List Role × List Session :=
  (db.users, db.accounts, db.userRoles, db.roles, db.sessions)

/-- A step that leaves the tables alone. -/
theorem of_same {before after : State} (same : tables after.store.db = tables before.store.db)
    (journal : before.journal <+: after.journal) : Links before after := by
  simp only [tables, Prod.mk.injEq] at same
  obtain ⟨users, accounts, userRoles, roles, sessions⟩ := same
  constructor
  case constraints =>
    intro holds
    constructor
    · rw [users]
      exact holds.users
    · rw [accounts]
      exact holds.accounts
    · rw [accounts, users]
      exact holds.owners
    · rw [userRoles, users]
      exact holds.assigned
    · rw [roles]
      exact holds.role
    · rw [sessions]
      exact holds.sessions
  case users =>
    intro user member
    exact ⟨user, users ▸ member, rfl⟩
  case sessions =>
    intro session member
    exact sessions ▸ member
  case links =>
    intro account member
    exact .inl ⟨account, accounts ▸ member, rfl⟩
  case journal => exact journal

end Links

/-- Since a callback has looked them up, nobody has taken the subject or the address of the user
that a step adds; nobody has the placeholder, where that is the address; and the values of the
provider fit their columns. -/
def Addable (lower : String → String) (state : State) (_ : ℕ) (_ : Input) (events : List Event) :
    Prop :=
  ∀ event ∈ events, match event with
    | .socialSignUp user account lookups =>
        (∀ other ∈ state.store.db.accounts, other.provider = account.provider →
          other.providerAccountId = account.providerAccountId →
          lookups.linked = some other.userId) ∧
        (∀ asked ∈ lookups.asked, ∀ other ∈ state.store.db.users,
          sameEmail lower other.email asked.1 = true → asked.2 = false) ∧
        (lookups.asked.any (·.2) = false → ∀ other ∈ state.store.db.users,
          sameEmail lower other.email (SocialAuthService.placeholderEmail account.provider
            account.providerAccountId) = false) ∧
        (∀ asked ∈ lookups.asked, storable asked.1 = true) ∧
        (∀ text ∈ user.displayName, storable text = true ∧ text.length ≤ 100) ∧
        storable account.providerAccountId = true ∧ account.providerAccountId.length ≤ 256
    | _ => True

instance (lower : String → String) (state : State) (call : ℕ) (input : Input)
    (events : List Event) : Decidable (Addable lower state call input events) := by
  refine @List.decidableBAll _ _ (fun event => ?_) events
  split <;> infer_instance

/-- Any interleaving in which users are added so. -/
def Law.linking (lower : String → String) : Law Input World Event :=
  .concurrent (Addable lower) Links

variable {lower : String → String}

instance : Frames (.linking lower) Links Links.tables fun _ => False := by
  refine Frames.concurrent Links.refl Links.trans (fun _ _ => rfl) ?_
  intro state call input world events _ same _ _
  refine Links.of_same same ?_
  rw [Shared.advance_journal]
  exact List.prefix_append _ _

/-! ### What the writes keep -/

namespace Constraints

variable {db : Db}

theorem withUser (holds : Constraints db) (user : User) (row : UserRole)
    (fresh : ∀ other ∈ db.users, other.id ≠ user.id) (own : row.userId = user.id) :
    Constraints { db with users := db.users ++ [user], userRoles := db.userRoles ++ [row] } where
  users := holds.users.append fresh
  accounts := holds.accounts
  owners account member := by
    obtain ⟨owner, ownerMember, owns⟩ := holds.owners account member
    exact ⟨owner, List.mem_append_left _ ownerMember, owns⟩
  assigned other member := by
    rcases List.mem_append.mp member with old | new
    · obtain ⟨owner, ownerMember, owns⟩ := holds.assigned other old
      exact ⟨owner, List.mem_append_left _ ownerMember, owns⟩
    · rw [List.mem_singleton.mp new]
      exact ⟨user, List.mem_append_right _ List.mem_cons_self, own.symm⟩
  role := holds.role
  sessions := holds.sessions

theorem withAccount (holds : Constraints db) (account : Account)
    (unlinked : ∀ other ∈ db.accounts, other.provider = account.provider →
      other.providerAccountId ≠ account.providerAccountId)
    (owner : ∃ user ∈ db.users, user.id = account.userId) :
    Constraints { db with accounts := db.accounts ++ [account] } where
  users := holds.users
  accounts := by
    refine holds.accounts.append ?_
    intro other member same
    obtain ⟨provider, subject⟩ := Prod.mk.inj same
    exact unlinked other member provider subject
  owners other member := by
    rcases List.mem_append.mp member with old | new
    · exact holds.owners other old
    · rw [List.mem_singleton.mp new]
      exact owner
  assigned := holds.assigned
  role := holds.role
  sessions := holds.sessions

theorem withoutAccounts (holds : Constraints db) (pred : Account → Bool) :
    Constraints { db with accounts := Table.deleteWhere pred db.accounts } where
  users := holds.users
  accounts := holds.accounts.deleteWhere
  owners account member := holds.owners account (Table.mem_deleteWhere.mp member).1
  assigned := holds.assigned
  role := holds.role
  sessions := holds.sessions

theorem withSession (holds : Constraints db) {session : Session}
    (fresh : ∀ other ∈ db.sessions, other.id ≠ session.id) :
    Constraints { db with sessions := db.sessions ++ [session] } where
  users := holds.users
  accounts := holds.accounts
  owners := holds.owners
  assigned := holds.assigned
  role := holds.role
  sessions := holds.sessions.append fresh

end Constraints

/-- A user that exists does so after an update that keeps the ids. -/
theorem exists_updateWhere {users : List User} {pred : User → Bool} {write : User → User}
    (keeps : ∀ user, (write user).id = user.id) {id : Guid} (found : ∃ user ∈ users, user.id = id) :
    ∃ user ∈ Table.updateWhere pred write users, user.id = id := by
  obtain ⟨user, member, same⟩ := found
  have unchanged : (Table.updateWhere pred write users).map User.id = users.map User.id :=
    Table.map_updateWhere keeps
  have present : id ∈ users.map User.id := same ▸ List.mem_map_of_mem member
  rw [← unchanged] at present
  exact List.mem_map.mp present

theorem Constraints.updateUsers {db : Db} (holds : Constraints db) {pred : User → Bool}
    {write : User → User} (keeps : ∀ user, (write user).id = user.id) :
    Constraints { db with users := Table.updateWhere pred write db.users } where
  users := holds.users.updateWhere keeps
  accounts := holds.accounts
  owners account member := exists_updateWhere keeps (holds.owners account member)
  assigned row member := exists_updateWhere keeps (holds.assigned row member)
  role := holds.role
  sessions := holds.sessions

namespace Links

/-- A write, from what becomes of the tables. -/
theorem of_write {state : State} {call : ℕ} {input : Input} {events : List Event} {db : Db}
    (constraints : Constraints state.store.db → Constraints db)
    (users : ∀ user ∈ state.store.db.users, ∃ later ∈ db.users, later.id = user.id)
    (sessions : ∀ session ∈ state.store.db.sessions, session ∈ db.sessions)
    (links : ∀ account ∈ db.accounts, (∃ old ∈ state.store.db.accounts, old.link = account.link) ∨
      (state.advance call input ({ state.store with db }, events)).Reports account.link) :
    Links state (state.advance call input ({ state.store with db }, events)) where
  constraints := constraints
  users := users
  sessions := sessions
  links := links
  journal := by
    rw [Shared.advance_journal]
    exact List.prefix_append _ _

end Links

namespace Keeps

/-- A save. -/
theorem linking_saveChanges {changes : Instant → Db → Except AppException Db}
    {events : Db → List Event}
    (constraints : ∀ now db after, changes now db = .ok after → Constraints db → Constraints after)
    (users : ∀ now db after, changes now db = .ok after →
      ∀ user ∈ db.users, ∃ later ∈ after.users, later.id = user.id)
    (sessions : ∀ now db after, changes now db = .ok after →
      ∀ session ∈ db.sessions, session ∈ after.sessions)
    (accounts : ∀ now db after, changes now db = .ok after →
      ∀ account ∈ after.accounts, account ∈ db.accounts) :
    Keeps (.linking lower) Links (Action.saveChanges changes events) := by
  refine .saveChanges ?_
  intro call start current input db relied saved _
  have written : Links current (current.advance call input
      ({ current.store with db }, events current.store.db)) := by
    refine .of_write (constraints _ _ _ saved) (users _ _ _ saved) (sessions _ _ _ saved) ?_
    intro account member
    exact .inl ⟨account, accounts _ _ _ saved account member, rfl⟩
  exact ⟨written, relied.1.trans _ _ _ written⟩

end Keeps

/-! ### The other operations -/

theorem Db.deleteAccount_ok {db after : Db} {row : Account}
    (saved : db.deleteAccount row = .ok after) :
    after = { db with accounts := Table.deleteWhere (·.id = row.id) db.accounts } := by
  unfold deleteAccount at saved
  split at saved
  · exact (Except.ok.inj saved).symm
  · cases saved

namespace UserService

theorem updateProfileAsync_links (userId : Guid) (displayName : Option String) :
    Keeps (.linking lower) Links (updateProfileAsync userId displayName) := by
  apply Keeps.bind (.queryOrThrow _)
  intro found
  apply Keeps.bind (.orThrow _ _)
  intro user
  apply Keeps.bind
  · have updated : ∀ now db after, (do
        checkText 100 (displayName.map trim)
        Db.updateUser now db user { user with displayName := displayName.map trim }) =
          Except.ok after →
          ∃ pred write, after = { db with users := Table.updateWhere pred write db.users } ∧
            ∀ stored : User, (write stored).id = stored.id := by
      intro now db after saved
      obtain ⟨-, -, saved⟩ := bind_eq_ok.mp saved
      exact ⟨_, _, (Db.updateUser_eq_ok.mp saved).2, fun _ => rfl⟩
    refine .linking_saveChanges ?_ ?_ ?_ ?_
    · intro now db after saved holds
      obtain ⟨pred, write, rfl, keeps⟩ := updated now db after saved
      exact holds.updateUsers keeps
    · intro now db after saved stored member
      obtain ⟨pred, write, rfl, keeps⟩ := updated now db after saved
      exact exists_updateWhere keeps ⟨stored, member, rfl⟩
    · intro now db after saved session member
      obtain ⟨pred, write, rfl, -⟩ := updated now db after saved
      exact member
    · intro now db after saved account member
      obtain ⟨pred, write, rfl, -⟩ := updated now db after saved
      exact member
  intro _
  exact .bind (.queryOrThrow _) fun profile => .orThrow _ _

theorem unlinkAccountAsync_links (userId accountId : Guid) :
    Keeps (.linking lower) Links (unlinkAccountAsync userId accountId) := by
  apply Keeps.bind (.queryOrThrow _)
  intro found
  apply Keeps.bind (.orThrow _ _)
  intro account
  apply Keeps.bind (.query _)
  intro alternative
  apply Keeps.guard
  apply Keeps.bind
  · refine .linking_saveChanges ?_ ?_ ?_ ?_
    · intro now db after saved holds
      rw [Db.deleteAccount_ok saved]
      exact holds.withoutAccounts _
    · intro now db after saved user member
      rw [Db.deleteAccount_ok saved]
      exact ⟨user, member, rfl⟩
    · intro now db after saved session member
      rw [Db.deleteAccount_ok saved]
      exact member
    · intro now db after saved other member
      rw [Db.deleteAccount_ok saved] at member
      exact (Table.mem_deleteWhere.mp member).1
  intro _
  exact .notifyAsync _ _ _

end UserService

namespace RegistrationService

variable {services : Services} {http : HttpContext}

theorem addUser_eq_ok {user : User} {token : VerificationToken} {now : Instant} {db after : Db}
    (saved : addUser lower user token now db = .ok after) :
    (∀ other ∈ db.users, other.id ≠ user.id) ∧ ∃ verificationTokens, after = { db with
      users := db.users ++ [{ user with createdAt := now, updatedAt := now }]
      userRoles := db.userRoles ++
        [{ userId := user.id, roleId := RoleSeed.userRoleId, createdAt := now, updatedAt := now }]
      verificationTokens } := by
  obtain ⟨-, -, saved⟩ := bind_eq_ok.mp saved
  obtain ⟨withUser, userSaved, saved⟩ := bind_eq_ok.mp saved
  obtain ⟨withRole, roleSaved, saved⟩ := bind_eq_ok.mp saved
  obtain ⟨⟨fresh, -, -⟩, rfl⟩ := Db.insertUser_eq_ok.mp userSaved
  obtain ⟨-, rfl⟩ := Db.insertUserRole_eq_ok.mp roleSaved
  obtain ⟨verificationTokens, rfl⟩ := Db.insertVerificationToken_ok saved
  exact ⟨fresh, verificationTokens, rfl⟩

theorem handleExistingAsync_links (existing : User) :
    Keeps (.linking lower) Links (handleExistingAsync services existing) :=
  .bind (VerificationTokens.store_frame_reporting (fun _ _ => rfl) (fun _ _ _ => id) services _ _ _)
    fun _ => .bind (.queueEmailReporting id) fun _ => .pure _

theorem addUser_links (user : User) (token : VerificationToken) :
    Keeps (.linking lower) Links (Action.saveChanges (addUser lower user token)
      fun _ => [.userRegistered user, .verificationTokenIssued token]) := by
  refine .linking_saveChanges ?_ ?_ ?_ ?_
  · intro now db after saved holds
    obtain ⟨fresh, verificationTokens, rfl⟩ := addUser_eq_ok saved
    have kept := holds.withUser { user with createdAt := now, updatedAt := now }
      ⟨user.id, RoleSeed.userRoleId, now, now⟩ fresh rfl
    exact { kept with }
  · intro now db after saved other member
    obtain ⟨-, verificationTokens, rfl⟩ := addUser_eq_ok saved
    exact ⟨other, List.mem_append_left _ member, rfl⟩
  · intro now db after saved session member
    obtain ⟨-, verificationTokens, rfl⟩ := addUser_eq_ok saved
    exact member
  · intro now db after saved account member
    obtain ⟨-, verificationTokens, rfl⟩ := addUser_eq_ok saved
    exact member

theorem createAsync_links (user : User) (token : VerificationToken) (plaintext : String) :
    Keeps (.linking services.lower) Links
      (createAsync services http user token plaintext) := by
  apply Keeps.bind
  · apply Keeps.tryCatch
    · exact .bind (addUser_links user token) fun _ => .pure _
    intro exception
    exact .ite (.pure _) (.throw _)
  intro raced
  apply Keeps.ite
  · exact .bind (.queryOrThrow _) fun existing => handleExistingAsync_links existing
  · exact .bind (.logAsync http _ _) fun _ => .bind (.queueEmailReporting id) fun _ => .pure _

theorem registerAsync_links (request : RegisterRequest) :
    Keeps (.linking services.lower) Links (registerAsync services http request) := by
  refine .bind (.drawReporting id) fun salt => .bind (.queryOrThrow _) fun existing => ?_
  cases existing with
  | some user => exact handleExistingAsync_links user
  | none =>
      apply Keeps.bind .draw
      intro drawn
      apply Keeps.bind .draw
      intro _
      apply Keeps.bind .draw
      intro _
      apply Keeps.bind .draw
      intro _
      exact .bind .utcNow fun _ => createAsync_links _ _ _

end RegistrationService

/-! ### The sign-in -/

theorem Db.hasUser_of_exists {db : Db} {id : Guid} (found : ∃ user ∈ db.users, user.id = id) :
    db.hasUser id = true := by
  obtain ⟨user, member, same⟩ := found
  exact List.any_eq_true.mpr ⟨user, member, by simpa using same⟩

theorem insertUser_refused {now : Instant} {db : Db} {user : User} {exception : AppException}
    (free : ∀ other ∈ db.users, sameEmail lower other.email user.email = false)
    (stored : storable user.email = true)
    (refused : db.insertUser now lower user = .error exception) : IsCollision exception := by
  rcases Db.insertUser_error refused with ⟨unstorable, -⟩ | refused
  · rw [stored] at unstorable
    cases unstorable
  obtain ⟨name, member, rfl⟩ := insertRow_refused refused
  simp only [List.mem_cons, Prod.mk.injEq, List.not_mem_nil, or_false] at member
  rcases member with ⟨rfl, -⟩ | ⟨-, taken⟩
  · simp [IsCollision]
  · have untaken : db.users.any (sameEmail lower ·.email user.email) = false := by simpa using free
    rw [untaken] at taken
    cases taken

theorem insertUserRole_accepted {now : Instant} {db : Db} {row : UserRole}
    {exception : AppException}
    (fresh : ∀ other ∈ db.userRoles, other.userId ≠ row.userId)
    (owner : ∃ user ∈ db.users, user.id = row.userId)
    (role : ∃ role ∈ db.roles, role.id = row.roleId) :
    db.insertUserRole now row ≠ .error exception := by
  have accepted : db.insertUserRole now row = .ok _ :=
    Db.insertUserRole_eq_ok.mpr ⟨⟨fun other member same => absurd same (fresh other member),
      Db.hasUser_of_exists owner, role⟩, rfl⟩
  rw [accepted]
  exact nofun

theorem insertAccount_refused {now : Instant} {db : Db} {account : Account}
    {exception : AppException}
    (unlinked : ∀ other ∈ db.accounts, other.provider = account.provider →
      other.providerAccountId ≠ account.providerAccountId)
    (owner : ∃ user ∈ db.users, user.id = account.userId)
    (refused : db.insertAccount now account = .error exception) : IsCollision exception := by
  simp only [Db.insertAccount, bind_eq_error, pure_ne_error, and_false, exists_false, or_false]
    at refused
  obtain ⟨name, member, rfl⟩ := insertRow_refused refused
  simp only [List.mem_cons, Prod.mk.injEq, List.not_mem_nil, or_false] at member
  rcases member with ⟨rfl, -⟩ | ⟨-, taken⟩ | ⟨-, missing⟩
  · simp [IsCollision]
  · have untaken : (db.accounts.any fun other => other.provider = account.provider &&
        other.providerAccountId = account.providerAccountId) = false := by simpa using unlinked
    rw [untaken] at taken
    cases taken
  · rw [Db.hasUser_of_exists owner] at missing
    cases missing

theorem insertSession_refused {now : Instant} {db : Db} {session : Session}
    {exception : AppException}
    (owner : ∃ user ∈ db.users, user.id = session.userId)
    (refused : db.insertSession now session = .error exception) : IsCollision exception := by
  simp only [Db.insertSession, bind_eq_error, pure_ne_error, and_false, exists_false, or_false]
    at refused
  obtain ⟨name, member, rfl⟩ := insertRow_refused refused
  simp only [List.mem_cons, Prod.mk.injEq, List.not_mem_nil, or_false] at member
  rcases member with ⟨rfl, -⟩ | ⟨-, missing⟩
  · simp [IsCollision]
  · rw [Db.hasUser_of_exists owner] at missing
    cases missing

theorem insertRefreshToken_refused {now : Instant} {db : Db} {token : RefreshToken}
    {exception : AppException} (owner : ∃ session ∈ db.sessions, session.id = token.sessionId)
    (refused : db.insertRefreshToken now token = .error exception) : IsCollision exception := by
  simp only [Db.insertRefreshToken, bind_eq_error, pure_ne_error, and_false, exists_false,
    or_false] at refused
  obtain ⟨name, member, rfl⟩ := insertRow_refused refused
  simp only [List.mem_cons, Prod.mk.injEq, List.not_mem_nil, or_false] at member
  rcases member with ⟨rfl, -⟩ | ⟨rfl, -⟩ | ⟨-, missing⟩
  · simp [IsCollision]
  · simp [IsCollision]
  · have present : db.sessions.any (·.id = token.sessionId) = true := by simpa using owner
    rw [present] at missing
    cases missing

/-- In a keyed table, the query for a row that exists by its key finds it. -/
theorem single_of_keyed {ρ : Type} {key : ρ → Guid} {rows : List ρ} (keyed : Table.Keyed key rows)
    {id : Guid} (found : ∃ row ∈ rows, key row = id) :
    ∃ row ∈ rows, key row = id ∧ rows.filter (key · = id) = [row] := by
  obtain ⟨row, member, rfl⟩ := found
  exact ⟨row, member, rfl, keyed.filter_key member⟩

/-- A session that is stored stays so. -/
theorem HoldsSession.later {userId id : Guid} {before after : State}
    (holds : HoldsSession userId id before) (kept : Links before after) :
      HoldsSession userId id after := by
  obtain ⟨session, member, own⟩ := holds
  exact ⟨session, kept.sessions session member, own⟩

section SignIn

variable {call : ℕ} {start : State}

theorem Links.user_later {before after : State} (kept : Links before after) {id : Guid}
    (found : ∃ user ∈ before.store.db.users, user.id = id) :
    ∃ user ∈ after.store.db.users, user.id = id := by
  obtain ⟨user, member, rfl⟩ := found
  exact kept.users user member

/-- A session is opened, or its id collides. -/
theorem SessionService.createAsync_inserts (services : Services) {request : NewSessionRequest}
    (holds : Constraints start.store.db)
    (owner : ∃ user ∈ start.store.db.users, user.id = request.userId) :
    (createAsync services request).wp (.linking lower) call
      (fun outcome after => Links start after ∧
      match outcome with
      | .ok id => HoldsSession request.userId id after
      | .error exception => IsCollision exception) start := by
  refine wp_createAsync (K := Links) inferInstance ?_ ?_ ?_
  · intro current row input db prepared saved _
    obtain ⟨⟨fresh, -⟩, rfl⟩ := Db.insertSession_eq_ok.mp saved
    obtain ⟨read, -, equal⟩ := prepared.dated
    have opened : Links current (current.advance call input ({ current.store with
        db := { current.store.db with sessions := current.store.db.sessions ++
          [{ row with createdAt := input.now, updatedAt := input.now }] } }, [])) := by
      refine .of_write (fun kept => kept.withSession fresh) (fun user member => ⟨user, member, rfl⟩)
        (fun session member => List.mem_append_left _ member) ?_
      exact fun account member => .inl ⟨account, member, rfl⟩
    refine ⟨opened, prepared.reached.trans _ _ _ opened, _,
      List.mem_append_right _ List.mem_cons_self, rfl, ?_⟩
    rw [equal]
    rfl
  · intro seen exception reached unknown
    obtain ⟨user, -, -, only⟩ :=
      single_of_keyed (reached.constraints holds).users (reached.user_later owner)
    rw [only] at unknown
    cases unknown
  · intro current later row exception now prepared rests refused
    refine ⟨prepared.reached.trans _ _ _ rests, insertSession_refused ?_ refused⟩
    obtain ⟨read, -, equal⟩ := prepared.dated
    rw [equal]
    exact prepared.reached.user_later owner

/-- A refresh token is issued to a session that exists, or it collides. -/
theorem RefreshTokenService.issueAsync_issuesOrCollides (services : Services)
    {userId sessionId : Guid}
    (holds : Constraints start.store.db) (held : HoldsSession userId sessionId start) :
    (issueAsync services sessionId).wp (.linking lower) call
      (fun outcome after => Links start after ∧
      ∀ exception, outcome = .error exception → IsCollision exception) start := by
  refine wp_issueAsync (K := Links) inferInstance ?_ ?_ ?_
  · intro seen drawn current session row input db see _ _ draw rests saved _
    have reached := (see.trans _ _ _ draw.reached).trans _ _ _ rests
    obtain ⟨-, rfl⟩ := Db.insertRefreshToken_eq_ok.mp saved
    have issued : Links current (current.advance call input ({ current.store with
        db := { current.store.db with refreshTokens := current.store.db.refreshTokens ++
          [{ row with createdAt := input.now, updatedAt := input.now }] } }, [])) := by
      refine .of_same rfl ?_
      rw [Shared.advance_journal]
      exact List.prefix_append _ _
    exact ⟨issued, fun _ => ⟨reached.trans _ _ _ issued, fun _ impossible => nomatch impossible⟩⟩
  · intro seen exception reached unknown
    obtain ⟨session, member, same, -⟩ := held.later reached
    obtain ⟨found, -, -, only⟩ :=
      single_of_keyed (reached.constraints holds).sessions ⟨session, member, same⟩
    rw [only] at unknown
    cases unknown
  · intro seen drawn current later session row exception now see same draw rests after refused
    have reached := (see.trans _ _ _ draw.reached).trans _ _ _ rests
    refine ⟨reached.trans _ _ _ after, ?_⟩
    rintro _ ⟨⟩
    refine insertRefreshToken_refused ?_ refused
    obtain ⟨stored, member, storedId, -⟩ := held.later reached
    exact ⟨stored, member, storedId.trans (same.symm.trans draw.owner.symm)⟩

/-- What the sign-in of a user comes to. -/
def SignsInOrCollides (userId : Guid) (start : State) :
    Except AppException LoginResponse → State → Prop
  | .ok response, later => Links start later ∧ SignsIn userId response later
  | .error exception, _ => IsCollision exception

theorem AuthenticationSessionFactory.createAsync_completes (services : Services)
    (http : HttpContext)
    {userId : Guid} (methods : List AuthenticationMethod) (holds : Constraints start.store.db)
    (owner : ∃ user ∈ start.store.db.users, user.id = userId) :
    (createAsync services http userId methods).wp (.linking lower) call
      (SignsInOrCollides userId start)
      start := by
  have calm : Calm (.linking lower) call Links := inferInstance
  simp only [createAsync, Program.wp_bind]
  refine Action.calm_queryOrThrow calm ?_
  intro seen see
  obtain ⟨user, -, same, only⟩ :=
    single_of_keyed (see.constraints holds).users (see.user_later owner)
  rw [only, Action.single, Program.andThen_ok, Program.wp_bind]
  refine Action.calm_query calm ?_
  intro named name
  rw [Program.andThen_ok, Program.wp_bind]
  refine Action.calm_utcNow calm ?_
  intro read reading
  have begun := (see.trans _ _ _ name).trans _ _ _ reading
  rw [Program.andThen_ok]
  refine Program.wp_bind_of (SessionService.createAsync_inserts services (begun.constraints holds)
    (begun.user_later owner)) ?_ ?_
  case refine_2 =>
    rintro exception current ⟨-, collides⟩
    exact collides
  rintro sessionId created ⟨create, held⟩
  have opened := begun.trans _ _ _ create
  refine Program.wp_bind_of (RefreshTokenService.issueAsync_issuesOrCollides services
    (opened.constraints holds) held) ?_ ?_
  case refine_2 =>
    rintro exception current ⟨-, collides⟩
    exact collides exception rfl
  rintro refresh issued ⟨issue, -⟩
  rw [Program.wp_bind]
  refine AccessTokenIssuer.wp_issueAsync calm ?_
  intro access signed _ sign
  exact ⟨(opened.trans _ _ _ issue).trans _ _ _ sign, same, held.later (issue.trans _ _ _ sign)⟩

end SignIn

/-! ### The callback -/

namespace SocialAuthService

/-- A save that may add the user adds it, or a drawn id collides. -/
theorem addLinkedUser_refused {user : User} {account : Account} {now : Instant} {db : Db}
    {exception : AppException} (holds : Constraints db)
    (free : ∀ other ∈ db.users, sameEmail lower other.email user.email = false)
    (stored : storable user.email = true)
    (unlinked : ∀ other ∈ db.accounts, other.provider = account.provider →
      other.providerAccountId ≠ account.providerAccountId)
    (name : ∀ text ∈ user.displayName, storable text = true ∧ text.length ≤ 100)
    (subject : storable account.providerAccountId = true ∧ account.providerAccountId.length ≤ 256)
    (own : account.userId = user.id)
    (refused : addLinkedUser lower user account now db = .error exception) :
    IsCollision exception := by
  have fits : checkText 100 user.displayName = .ok () := checkText_eq_ok.mpr name
  have fitsSubject : checkText 256 (some account.providerAccountId) = .ok () :=
    checkText_eq_ok.mpr fun text equal => Option.some.inj equal ▸ subject
  rw [addLinkedUser, fits] at refused
  rcases bind_eq_error.mp refused with impossible | ⟨_, -, refused⟩
  · cases impossible
  rcases bind_eq_error.mp refused with refused | ⟨withUser, saved, refused⟩
  · exact insertUser_refused free stored refused
  obtain ⟨⟨fresh, -, -⟩, rfl⟩ := Db.insertUser_eq_ok.mp saved
  have added : ∃ other ∈ db.users ++ [{ user with createdAt := now, updatedAt := now }],
      other.id = user.id := ⟨_, List.mem_append_right _ List.mem_cons_self, rfl⟩
  have unassigned : ∀ other ∈ db.userRoles, other.userId ≠ user.id := by
    intro other member same
    obtain ⟨owner, ownerMember, owns⟩ := holds.assigned other member
    exact fresh owner ownerMember (owns.trans same)
  rcases bind_eq_error.mp refused with refused | ⟨withRole, roleSaved, refused⟩
  · exact absurd refused (insertUserRole_accepted unassigned added holds.role)
  obtain ⟨-, rfl⟩ := Db.insertUserRole_eq_ok.mp roleSaved
  rw [fitsSubject] at refused
  rcases bind_eq_error.mp refused with impossible | ⟨_, -, refused⟩
  · cases impossible
  refine insertAccount_refused ?_ ?_ refused
  · exact unlinked
  · obtain ⟨owner, ownerMember, owns⟩ := added
    exact ⟨owner, ownerMember, owns.trans own.symm⟩

/-- A saved user and its account keep the constraints. -/
theorem addLinkedUser_constraints {user : User} {account : Account} {now : Instant} {db after : Db}
    (own : account.userId = user.id) (saved : addLinkedUser lower user account now db = .ok after)
    (holds : Constraints db) : Constraints after := by
  obtain ⟨fresh, -, unlinked, rfl⟩ := addLinkedUser_eq_ok saved
  have withUser := holds.withUser { user with createdAt := now, updatedAt := now }
    ⟨user.id, RoleSeed.userRoleId, now, now⟩ fresh rfl
  have added : ∃ other ∈ db.users ++ [{ user with createdAt := now, updatedAt := now }],
      other.id = account.userId := ⟨_, List.mem_append_right _ List.mem_cons_self, own.symm⟩
  exact withUser.withAccount { account with createdAt := now, updatedAt := now } unlinked added

variable {name : String} {identity : SocialIdentity} {call : ℕ} {start : State}

/-- What the resolution of an identity comes to. -/
def ResolvesOrCollides (name : String) (identity : SocialIdentity) (start : State) :
    Except AppException User → State → Prop
  | .ok user, later => Links start later ∧
      (∃ stored ∈ later.store.db.users, stored.id = user.id) ∧
      ((∃ account ∈ start.store.db.accounts, account.link = (name, identity.subject, user.id)) ∨
        later.Reports (name, identity.subject, user.id))
  | .error exception, _ => IsCollision exception

theorem storable_append {left right : String} :
    storable (left ++ right) = true ↔ storable left = true ∧ storable right = true := by
  simp only [storable, String.toList_append, List.all_append, Bool.and_eq_true]

/-- The address of a new user is free and can be stored, if the lookups before still hold. -/
theorem FollowsLookups.free {user : User} {account : Account} {lookups : SocialLookups} {db : Db}
    (follows : FollowsLookups none user account lookups)
    (kept : ∀ asked ∈ lookups.asked, ∀ other ∈ db.users,
      sameEmail lower other.email asked.1 = true → asked.2 = false)
    (placeholder : lookups.asked.any (·.2) = false → ∀ other ∈ db.users,
      sameEmail lower other.email (placeholderEmail account.provider account.providerAccountId) =
        false) :
    ∀ other ∈ db.users, sameEmail lower other.email user.email = false := by
  intro other member
  rcases follows.address with ⟨address, asked, same⟩ | ⟨unusable, same⟩
  · rw [same, Bool.eq_false_iff]
    intro taken
    exact Bool.noConfusion (kept (address, true) asked other member taken)
  · rw [same]
    exact placeholder unusable other member

theorem FollowsLookups.storable {linked : Option Guid} {user : User} {account : Account}
    {lookups : SocialLookups} (follows : FollowsLookups linked user account lookups)
    (asked : ∀ asked ∈ lookups.asked, storable asked.1 = true)
    (provider : storable account.provider = true)
    (subject : storable account.providerAccountId = true) : storable user.email = true := by
  rcases follows.address with ⟨address, found, same⟩ | ⟨-, same⟩
  · rw [same]
    exact asked (address, true) found
  · have domain : AuthStartpack.storable "@invalid.local" = true := by decide
    have dash : AuthStartpack.storable "-" = true := by decide
    rw [same]
    exact storable_append.mpr
      ⟨storable_append.mpr ⟨storable_append.mpr ⟨provider, dash⟩, subject⟩, domain⟩

theorem createUserAsync_completes {services : Services} {asking : State}
    (holds : Constraints start.store.db) (ask : Links start asking) (plain : storable name = true) :
    (createUserAsync services none name identity).wp (.linking services.lower) call
      (ResolvesOrCollides name identity start) asking := by
  refine wp_createUserAsync (K := Links) inferInstance ?_ ?_
  · intro current input user account lookups db asks rows _ saved _
    have reached := ask.trans _ _ _ asks
    have link : account.link = (name, identity.subject, user.id) := by
      simp only [Account.link, rows.provider, rows.subject, rows.owner]
    have reports : (current.advance call input ({ current.store with db },
        [.socialSignUp user account lookups])).Reports account.link := by
      refine ⟨⟨call, input, .socialSignUp user account lookups⟩, ?_, user, account, lookups, rfl,
        rfl⟩
      rw [Shared.advance_journal]
      exact List.mem_append_right _ List.mem_cons_self
    have added : Links current (current.advance call input
        ({ current.store with db }, [.socialSignUp user account lookups])) := by
      refine .of_write (addLinkedUser_constraints rows.owner saved) ?_ ?_ ?_
      · intro other member
        obtain ⟨-, -, -, rfl⟩ := addLinkedUser_eq_ok saved
        exact ⟨other, List.mem_append_left _ member, rfl⟩
      · intro session member
        obtain ⟨-, -, -, rfl⟩ := addLinkedUser_eq_ok saved
        exact member
      · intro other member
        obtain ⟨-, -, -, rfl⟩ := addLinkedUser_eq_ok saved
        rcases List.mem_append.mp member with old | new
        · exact .inl ⟨other, old, rfl⟩
        · rw [List.mem_singleton.mp new]
          exact .inr reports
    refine ⟨added, reached.trans _ _ _ added, ?_, .inr (link ▸ reports)⟩
    obtain ⟨-, -, -, rfl⟩ := addLinkedUser_eq_ok saved
    exact ⟨_, List.mem_append_right _ List.mem_cons_self, rfl⟩
  · intro current input user account lookups exception asks rows follows refused addable
    obtain ⟨linked, kept, placeholder, asked, displayName, subject⟩ :=
      addable _ List.mem_cons_self
    have holdsNow := (ask.trans _ _ _ asks).constraints holds
    -- The call adds a user because its own lookup found no account.
    have unlinked : ∀ other ∈ current.store.db.accounts, other.provider = account.provider →
        other.providerAccountId ≠ account.providerAccountId := by
      intro other member provider same
      exact nomatch follows.linked.symm.trans (linked other member provider same)
    have stored := follows.storable asked (rows.provider ▸ plain) subject.1
    refine ⟨.of_same rfl ?_, addLinkedUser_refused holdsNow (follows.free kept placeholder) stored
      unlinked displayName subject rows.owner refused⟩
    rw [Shared.advance_journal]
    exact List.prefix_append _ _

/-- At most one user is linked to a provider and subject. -/
theorem linkedUsers_cases {db : Db} (holds : Constraints db) (name subject : String) :
    linkedUsers name subject db = [] ∨ ∃ user, linkedUsers name subject db = [user] := by
  unfold linkedUsers
  by_cases found : ∃ account ∈ db.accounts,
      account.provider = name ∧ account.providerAccountId = subject
  case neg =>
    have none : (db.accounts.filter fun account =>
        account.provider = name && account.providerAccountId = subject) = [] := by
      rw [List.filter_eq_nil_iff]
      intro account member
      simpa using fun provider same => found ⟨account, member, provider, same⟩
    exact .inl (by rw [none, List.flatMap_nil])
  case pos =>
    obtain ⟨account, member, rfl, rfl⟩ := found
    have only : (db.accounts.filter fun other =>
        other.provider = account.provider && other.providerAccountId = account.providerAccountId) =
          [account] := by
      have keyed := holds.accounts.filter_key member
      simpa only [Prod.mk.injEq, Bool.decide_and] using keyed
    obtain ⟨user, -, -, single⟩ := single_of_keyed holds.users (holds.owners account member)
    exact .inr ⟨user, by rw [only, List.flatMap_singleton, single]⟩

theorem resolveUserAsync_completes {services : Services} {http : HttpContext} {asking : State}
    (holds : Constraints start.store.db) (ask : Links start asking) (plain : storable name = true) :
    (resolveUserAsync services http name identity).wp (.linking services.lower) call
      (ResolvesOrCollides name identity start) asking := by
  have calm : Calm (.linking services.lower) call Links := inferInstance
  simp only [resolveUserAsync, Program.wp_bind]
  refine Action.calm_queryOrThrow calm ?_
  intro seen asks
  have see := ask.trans _ _ _ asks
  rcases linkedUsers_cases (see.constraints holds) name identity.subject with none | ⟨user, only⟩
  · rw [none]
    simp only [Action.singleOrDefault, Program.andThen_ok]
    refine Program.wp_bind_of (createUserAsync_completes holds see plain) ?_ ?_
    case refine_2 =>
      intro exception current collides
      exact collides
    rintro user created ⟨reached, stored, known⟩
    rw [Program.wp_bind]
    refine AuditLogger.wp_logAsync calm ?_
    intro later logged
    refine ⟨reached.trans _ _ _ logged, logged.user_later stored, known.imp_right fun reports => ?_⟩
    exact reports.later logged.journal
  · rw [only]
    have member : user ∈ linkedUsers name identity.subject seen.store.db := by
      rw [only]
      exact List.mem_cons_self
    obtain ⟨account, accountMember, provider, subject, stored, owner⟩ := mem_linkedUsers.mp member
    have link : account.link = (name, identity.subject, user.id) := by
      simp only [Account.link, provider, subject, owner]
    exact ⟨see, ⟨user, stored, rfl⟩, link ▸ see.links account accountMember⟩

/-- The session of a response belongs to the user that is linked to the provider and the subject:
since the run began, or by a save of a callback. -/
def SignsInLinked (start : State) (name subject : String) (response : LoginResponse)
    (later : State) :
    Prop :=
  HoldsSession response.user.id response.sessionId later ∧
    ((∃ account ∈ start.store.db.accounts, account.link = (name, subject, response.user.id)) ∨
      later.Reports (name, subject, response.user.id))

/-- What the sign-in of an identity comes to. -/
def CompletesOrCollides (start : State) (name subject : String) :
    Except AppException LoginResponse → State → Prop
  | .ok response, later => SignsInLinked start name subject response later
  | .error exception, _ => IsCollision exception

theorem SignsInLinked.later {start before after : State} {name subject : String}
    {response : LoginResponse} (signsIn : SignsInLinked start name subject response before)
    (kept : Links before after) : SignsInLinked start name subject response after :=
  ⟨signsIn.1.later kept, signsIn.2.imp_right fun reports => reports.later kept.journal⟩

theorem signInAsync_completes {services : Services} {http : HttpContext} {asking : State}
    (holds : Constraints start.store.db) (ask : Links start asking) (plain : storable name = true) :
    (signInAsync services http name identity).wp (.linking services.lower) call
      (CompletesOrCollides start name identity.subject) asking := by
  have calm : Calm (.linking services.lower) call Links := inferInstance
  refine Program.wp_bind_of (resolveUserAsync_completes holds ask plain) ?_ ?_
  case refine_2 =>
    intro exception current collides
    exact collides
  rintro user resolved ⟨reached, stored, known⟩
  refine Program.wp_bind_of (AuthenticationSessionFactory.createAsync_completes services http _
    (reached.constraints holds) stored) ?_ ?_
  case refine_2 =>
    intro exception current collides
    exact collides
  rintro response created ⟨create, same, held⟩
  rw [Program.wp_bind]
  refine AuditLogger.wp_logAsync calm ?_
  intro later logged
  have signsIn : SignsInLinked start name identity.subject response created := by
    rw [← same] at held known
    exact ⟨held, known.imp_right fun reports => reports.later create.journal⟩
  exact signsIn.later logged

/-- The call has consumed a state token: its state was unconsumed and unexpired. -/
def ConsumedState (call : ℕ) (state : State) : Prop :=
  ∃ token, Event.verificationTokenConsumed token .socialState ∈ state.eventsOf call

section Callback

variable {services : Services} {host : SocialHost} {http : HttpContext} {answers : ProviderAnswers}
variable {provider : String} {query : SocialCallbackQuery}

theorem not_consumedState {state : State} (silent : state.eventsOf call = []) :
    ¬ ConsumedState call state := by
  rintro ⟨token, reported⟩
  rw [silent] at reported
  cases reported

/-- Consuming the state either reports it and goes on, or reports nothing and throws. -/
theorem consumeStateAsync_completes {state : String} (silent : start.eventsOf call = []) :
    (consumeStateAsync services state).wp (.linking services.lower) call (fun outcome later =>
      match outcome with
      | .ok _ => Links start later
      | .error _ => ¬ ConsumedState call later) start := by
  have quiet : Calm (.linking services.lower) call Links := inferInstance
  have calm : Calm (.linking services.lower) call fun before after =>
      Links before after ∧ after.eventsOf call = before.eventsOf call :=
    Calm.reporting call Links.refl Links.trans fun state input world admitted step =>
      (quiet.quiet state input world admitted step).1
  simp only [consumeStateAsync, Program.wp_bind]
  refine Action.calm_utcNow calm ?_
  rintro read ⟨reading, readSilent⟩
  rw [Program.andThen_ok, Program.wp_bind]
  refine VerificationTokens.wp_consume calm ?_
  rintro current input ⟨rests, currentSilent⟩
  intro hits events marked consumed _
  have kept : Links current consumed := by
    refine .of_same rfl ?_
    rw [Shared.advance_journal]
    exact List.prefix_append _ _
  refine ⟨kept, ?_⟩
  rw [Program.andThen_ok]
  by_cases missing : hits.length = 0
  · have nothing : events = [] := by
      rw [show events = hits.map _ from rfl, List.eq_nil_of_length_eq_zero missing, List.map_nil]
    rw [if_pos missing]
    refine not_consumedState ?_
    rw [Shared.eventsOf_advance, nothing, List.append_nil, currentSilent, readSilent, silent]
  · rw [if_neg missing]
    exact (reading.trans _ _ _ rests).trans _ _ _ kept

theorem storable_of_normalized {name : String}
    (normalized : normalizeProvider provider = .ok name) :
    storable name = true := by
  unfold normalizeProvider at normalized
  dsimp only at normalized
  split at normalized
  case isTrue known =>
    rw [← Except.ok.inj normalized]
    rcases known with google | gitHub
    · rw [google]
      decide
    · rw [gitHub]
      decide
  case isFalse => cases normalized

/-- Once the state is consumed, the identity that the provider returns is signed in. -/
theorem callbackAsync_completes (holds : Constraints start.store.db)
    (silent : start.eventsOf call = []) :
    (callbackAsync services host http answers provider query).wp (.linking services.lower) call
      (fun outcome later =>
      ConsumedState call later → ∀ name identity, normalizeProvider provider = .ok name →
        identityOf host answers name (query.code.getD "") = .ok identity →
        CompletesOrCollides start name identity.subject outcome later) start := by
  unfold callbackAsync
  cases normalized : normalizeProvider provider with
  | error exception => exact fun consumed => absurd consumed (not_consumedState silent)
  | ok name =>
  rw [Program.wp_bind, Program.wp_done, Program.andThen_ok]
  split
  case isTrue => exact fun consumed => absurd consumed (not_consumedState silent)
  refine Program.wp_bind_of (consumeStateAsync_completes silent) ?_ ?_
  case refine_2 =>
    intro exception current unconsumed consumed
    exact absurd consumed unconsumed
  intro _ current kept
  rw [Program.wp_bind, Program.wp_done]
  cases returned : identityOf host answers name (query.code.getD "") with
  | error exception =>
      rintro - _ identity ⟨⟩ impossible
      rw [returned] at impossible
      cases impossible
  | ok identity =>
      rw [Program.andThen_ok]
      refine Program.wp_mono
        (signInAsync_completes holds kept (storable_of_normalized normalized)) ?_
      rintro outcome later completes - _ other ⟨⟩ same
      rw [returned] at same
      cases same
      exact completes

end Callback

end SocialAuthService

end AuthStartpack
