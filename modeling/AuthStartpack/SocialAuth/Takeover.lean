import AuthStartpack.Services.Frames
import AuthStartpack.Services.Issuance
import AuthStartpack.Services.SocialAuth.SocialAuthService

/-!
Owns the identity rule of social logins. Whatever the provider asserts, a
callback signs in the user that its account is linked to, or a user that it has
added itself. An address never decides: one that somebody has already leads to a
new user with a placeholder.
-/

namespace AuthStartpack

/-- The tables that the sign-in of a known user leaves alone. -/
def Db.identities (db : Db) : Db :=
  { db with sessions := [], refreshTokens := [], verificationTokens := [], auditLogEntries := [] }

/-- The tables that a sign-in of any user may change. -/
def Db.signIns (db : Db) : Db :=
  { db with verificationTokens := [], auditLogEntries := [] }

/-- The tables of `Db.signIns`. -/
theorem Db.signIns_fields {before after : Db} (kept : after.signIns = before.signIns) :
    after.identities = before.identities ∧ after.sessions = before.sessions ∧
      after.refreshTokens = before.refreshTokens ∧ after.users = before.users ∧
      after.userRoles = before.userRoles ∧ after.accounts = before.accounts := by
  have identities : after.signIns.identities = before.signIns.identities := congrArg _ kept
  have sessions : after.signIns.sessions = before.signIns.sessions := congrArg _ kept
  have tokens : after.signIns.refreshTokens = before.signIns.refreshTokens := congrArg _ kept
  have users : after.signIns.users = before.signIns.users := congrArg _ kept
  have userRoles : after.signIns.userRoles = before.signIns.userRoles := congrArg _ kept
  have accounts : after.signIns.accounts = before.signIns.accounts := congrArg _ kept
  exact ⟨identities, sessions, tokens, users, userRoles, accounts⟩

/-- Every session that was added is one of this user, and every refresh token is for one. -/
structure OpensFor (userId : Guid) (before after : Db) : Prop where
  opened : ∃ sessions, after.sessions = before.sessions ++ sessions ∧
    ∀ session ∈ sessions, session.userId = userId
  issued : ∃ tokens, after.refreshTokens = before.refreshTokens ++ tokens ∧
    ∀ token ∈ tokens, ∃ session ∈ after.sessions,
      session.id = token.sessionId ∧ session.userId = userId

/-- Nothing but sessions of this user and their refresh tokens was added. -/
structure SignsInOnly (userId : Guid) (before after : Db) :
    Prop extends OpensFor userId before after where
  identities : after.identities = before.identities

namespace SignsInOnly

variable {userId : Guid}

theorem of_same {before after : Db} (same : after.signIns = before.signIns) :
    SignsInOnly userId before after := by
  obtain ⟨identities, sessions, tokens, -⟩ := Db.signIns_fields same
  refine ⟨⟨⟨[], ?_, fun _ member => nomatch member⟩, ⟨[], ?_, fun _ member => nomatch member⟩⟩,
    identities⟩
  · rw [List.append_nil]
    exact sessions
  · rw [List.append_nil]
    exact tokens

theorem trans {first second third : Db} (early : SignsInOnly userId first second)
    (late : SignsInOnly userId second third) : SignsInOnly userId first third := by
  obtain ⟨opened, openedEqual, own⟩ := early.opened
  obtain ⟨later, laterEqual, laterOwn⟩ := late.opened
  obtain ⟨issued, issuedEqual, held⟩ := early.issued
  obtain ⟨laterIssued, laterIssuedEqual, laterHeld⟩ := late.issued
  refine ⟨⟨⟨opened ++ later, ?_, ?_⟩, ⟨issued ++ laterIssued, ?_, ?_⟩⟩,
    late.identities.trans early.identities⟩
  · rw [laterEqual, openedEqual, List.append_assoc]
  · intro session member
    exact (List.mem_append.mp member).elim (own session) (laterOwn session)
  · rw [laterIssuedEqual, issuedEqual, List.append_assoc]
  · intro token member
    rcases List.mem_append.mp member with old | new
    · obtain ⟨session, sessionMember, same⟩ := held token old
      refine ⟨session, ?_, same⟩
      rw [laterEqual]
      exact List.mem_append_left later sessionMember
    · exact laterHeld token new

/-- A session of the user has been opened. -/
theorem of_opened {before : Db} {session : Session} (own : session.userId = userId) :
    SignsInOnly userId before { before with sessions := before.sessions ++ [session] } := by
  refine ⟨⟨⟨[session], rfl, ?_⟩, ⟨[], by simp, fun _ member => nomatch member⟩⟩, rfl⟩
  intro other member
  rw [List.mem_singleton.mp member]
  exact own

/-- A refresh token has been issued to a session of the user. -/
theorem of_issued {before : Db} {token : RefreshToken}
    (held : ∃ session ∈ before.sessions, session.id = token.sessionId ∧ session.userId = userId) :
    SignsInOnly userId before { before with refreshTokens := before.refreshTokens ++ [token] } := by
  refine ⟨⟨⟨[], by simp, fun _ member => nomatch member⟩, ⟨[token], rfl, ?_⟩⟩, rfl⟩
  intro other member
  rw [List.mem_singleton.mp member]
  exact held

/-- Sessions stay. -/
theorem mem_sessions {before after : Db} (kept : SignsInOnly userId before after)
    {session : Session}
    (member : session ∈ before.sessions) : session ∈ after.sessions := by
  obtain ⟨opened, equal, -⟩ := kept.opened
  rw [equal]
  exact List.mem_append_left opened member

end SignsInOnly

/-- Any steps, without interruption. -/
abbrev Law.whole : Law Input World Event := .alone (fun _ _ _ _ => True) fun _ _ => True

/-- `SignsInOnly` for the states of a run. -/
abbrev SigningIn (userId : Guid) (before after : State) : Prop :=
  SignsInOnly userId before.store.db after.store.db

instance (userId : Guid) : Frames .whole (SigningIn userId) Db.signIns fun _ => False :=
  Frames.alone SignsInOnly.trans (fun _ _ => rfl) fun _ _ => SignsInOnly.of_same

/-- A session with this id is stored, of this user. -/
def HoldsSession (userId : Guid) (id : Guid) (state : State) : Prop :=
  ∃ session ∈ state.store.db.sessions, session.id = id ∧ session.userId = userId

theorem SessionService.createAsync_signsIn (services : Services) (request : NewSessionRequest) :
    Yields .whole (SigningIn request.userId) (HoldsSession request.userId)
      (createAsync services request) := by
  intro call start
  refine wp_createAsync (K := SigningIn request.userId) inferInstance ?_ ?_ ?_
  · intro current row input db prepared saved _
    obtain ⟨-, rfl⟩ := Db.insertSession_eq_ok.mp saved
    obtain ⟨read, -, equal⟩ := prepared.dated
    have own : row.userId = request.userId := by rw [equal]; rfl
    refine ⟨trivial, prepared.reached.trans (.of_opened own), ?_⟩
    rintro _ ⟨⟩
    exact ⟨_, List.mem_append_right _ List.mem_cons_self, rfl, own⟩
  · intro seen exception reached _
    exact ⟨reached, by rintro _ ⟨⟩⟩
  · intro current later row exception now prepared rests _
    exact ⟨prepared.reached.trans rests, by rintro _ ⟨⟩⟩

theorem RefreshTokenService.issueAsync_signsIn {userId : Guid} (services : Services)
    {sessionId : Guid}
    {call : ℕ} {start : State} (holds : HoldsSession userId sessionId start) :
    (issueAsync services sessionId).wp .whole call
      (fun _ after => SigningIn userId start after) start := by
  refine wp_issueAsync (K := SigningIn userId) inferInstance ?_ ?_ ?_
  · intro seen drawn current session row input db see _ same draw rests saved _
    obtain ⟨-, rfl⟩ := Db.insertRefreshToken_eq_ok.mp saved
    have reached : SigningIn userId start current := (see.trans draw.reached).trans rests
    refine ⟨trivial, fun _ => reached.trans (.of_issued ?_)⟩
    obtain ⟨held, member, heldId, own⟩ := holds
    exact ⟨held, reached.mem_sessions member, heldId.trans (same.symm.trans draw.owner.symm), own⟩
  · intro seen exception reached _
    exact reached
  · intro seen drawn current later session row exception now see _ draw rests after _
    exact ((see.trans draw.reached).trans rests).trans after

/-- The response is for this user, and so is its session. -/
def SignsIn (userId : Guid) (response : LoginResponse) (state : State) : Prop :=
  response.user.id = userId ∧ HoldsSession userId response.sessionId state

theorem AuthenticationSessionFactory.createAsync_signsIn (services : Services) (http : HttpContext)
    (userId : Guid) (methods : List AuthenticationMethod) :
    Yields .whole (SigningIn userId) (SignsIn userId)
      (createAsync services http userId methods) := by
  intro call start
  have calm : Calm .whole call (SigningIn userId) := inferInstance
  simp only [createAsync, Program.wp_bind]
  refine Action.calm_queryOrThrow calm ?_
  intro seen see
  cases found : Action.single (seen.store.db.users.filter (·.id = userId)) with
  | error exception => exact ⟨see, by rintro _ ⟨⟩⟩
  | ok user =>
  have same : user.id = userId := by simpa using (Action.mem_of_single found).2
  rw [Program.andThen_ok, Program.wp_bind]
  refine Action.calm_query calm ?_
  intro named name
  rw [Program.andThen_ok, Program.wp_bind]
  refine Action.calm_utcNow calm ?_
  intro read reading
  have begun := (see.trans name).trans reading
  rw [Program.andThen_ok]
  refine Program.wp_bind_of (SessionService.createAsync_signsIn services _ call read) ?_ ?_
  case refine_2 =>
    rintro exception current ⟨created, -⟩
    exact ⟨begun.trans created, by rintro _ ⟨⟩⟩
  rintro sessionId created ⟨create, holds⟩
  refine Program.wp_bind_of
    (RefreshTokenService.issueAsync_signsIn services (holds sessionId rfl)) ?_ ?_
  case refine_2 =>
    intro exception current issue
    exact ⟨(begun.trans create).trans issue, by rintro _ ⟨⟩⟩
  intro refresh issued issue
  rw [Program.wp_bind]
  refine AccessTokenIssuer.wp_issueAsync calm ?_
  intro access signed _ sign
  refine ⟨((begun.trans create).trans issue).trans sign, ?_⟩
  rintro _ ⟨⟩
  obtain ⟨session, member, held⟩ := holds sessionId rfl
  exact ⟨same, session, (issue.trans sign).mem_sessions member, held⟩

/-! ### The user of an identity -/

/-- The rows of a user that a callback has added for an identity. -/
structure Adds (lower : String → String) (name : String) (identity : SocialIdentity)
    (before after : Db) (user : User) (account : Account) : Prop where
  rows : ∃ role : UserRole, role.userId = user.id ∧ role.roleId = RoleSeed.userRoleId ∧
    after.identities = { before.identities with
      users := before.users ++ [user]
      userRoles := before.userRoles ++ [role]
      accounts := before.accounts ++ [account] }
  fresh : ∀ other ∈ before.users, other.id ≠ user.id
  passwordless : user.passwordHash = none
  provider : account.provider = name
  subject : account.providerAccountId = identity.subject
  owner : account.userId = user.id
  unlinked : ∀ other ∈ before.accounts, other.provider = name →
    other.providerAccountId ≠ identity.subject
  only : ∀ other ∈ before.accounts, other.userId ≠ user.id
  verified : user.emailVerified = true → identity.emailVerified = true ∧
    identity.email = some user.email ∧
      ∀ other ∈ before.users, sameEmail lower other.email user.email = false

/-- Whom a callback for an identity signs in: the user that its account is linked to, or a new
one. -/
inductive Target (lower : String → String) (name : String) (identity : SocialIdentity)
    (before after : Db) (userId : Guid) : Prop
  | linked (account : Account) (member : account ∈ before.accounts)
      (provider : account.provider = name) (subject : account.providerAccountId = identity.subject)
      (owner : account.userId = userId) (identities : after.identities = before.identities)
  | added (user : User) (account : Account)
      (adds : Adds lower name identity before after user account)
      (same : user.id = userId)

theorem Target.later {lower : String → String} {name : String} {identity : SocialIdentity}
    {before after final : Db} {userId : Guid}
    (target : Target lower name identity before after userId)
    (identities : final.identities = after.identities) :
    Target lower name identity before final userId := by
  cases target with
  | linked account member provider subject owner same =>
      exact .linked account member provider subject owner (identities.trans same)
  | added user account adds same =>
      obtain ⟨role, ownRole, userRole, rows⟩ := adds.rows
      exact .added user account
        { adds with rows := ⟨role, ownRole, userRole, identities.trans rows⟩ } same

/-- Until the user is known, only tables change that no sign-in is about. -/
abbrev SignInsKept (before after : State) : Prop := after.store.db.signIns = before.store.db.signIns

instance : Frames .whole SignInsKept Db.signIns fun _ => False :=
  @Frames.alone _ (fun before after => after.signIns = before.signIns) _ _
    (fun early late => late.trans early) (fun _ _ => rfl) fun _ _ same => same

namespace SocialAuthService

theorem mem_linkedUsers {name subject : String} {db : Db} {user : User} :
    user ∈ linkedUsers name subject db ↔ ∃ account ∈ db.accounts, account.provider = name ∧
      account.providerAccountId = subject ∧ user ∈ db.users ∧ user.id = account.userId := by
  simp [linkedUsers, and_assoc]

section Rules

variable {law : Law Input World Event} {call : ℕ} {K : State → State → Prop} {state : State}

theorem wp_canUseProviderEmail (calm : Calm law call K) {services : Services}
    {email : Option String} {post : Except AppException Bool → State → Prop}
    (rest : ∀ usable later, K state later →
      (usable = true → isNullOrWhiteSpace email = false ∧ email = some (email.getD "")) →
      post (.ok usable) later) :
    (canUseProviderEmail services email).wp law call post state := by
  unfold canUseProviderEmail
  cases email with
  | none => exact rest false state (calm.refl state) fun impossible => nomatch impossible
  | some address =>
      split
      · exact rest false state (calm.refl state) fun impossible => nomatch impossible
      case isFalse asks =>
        refine Action.calm_query calm ?_
        intro later read
        refine rest _ later read ?_
        intro _
        exact ⟨by simpa using asks, rfl⟩

/-- The rows that a callback makes of an identity. -/
structure NewUser (name : String) (identity : SocialIdentity) (user : User) (account : Account) :
    Prop where
  passwordless : user.passwordHash = none
  displayName : user.displayName = identity.displayName
  verified : user.emailVerified = true →
    identity.emailVerified = true ∧ identity.email = some user.email
  provider : account.provider = name
  subject : account.providerAccountId = identity.subject
  owner : account.userId = user.id

/-- The address of a new user by the answers of the lookups before it: the one that was asked for,
if nobody had it, and else the placeholder. -/
structure FollowsLookups (linked : Option Guid) (user : User) (account : Account)
    (lookups : SocialLookups) : Prop where
  linked : lookups.linked = linked
  address : (∃ address, lookups.asked = some (address, true) ∧ user.email = address) ∨
    lookups.asked.any (·.2) = false ∧
      user.email = placeholderEmail account.provider account.providerAccountId

theorem wp_createUserAsync (calm : Calm law call K) {services : Services} {linked : Option Guid}
    {name : String} {identity : SocialIdentity} {post : Except AppException User → State → Prop}
    (adds : ∀ current input user account lookups db, K state current →
      NewUser name identity user account → FollowsLookups linked user account lookups →
      addLinkedUser services.lower user account input.now current.store.db = .ok db →
      law.admits current call input [.socialSignUp user account lookups] →
      let added := current.advance call input
        ({ current.store with db }, [.socialSignUp user account lookups])
      law.guarantee call current added ∧ post (.ok user) added)
    (refused : ∀ current input user account lookups exception, K state current →
      NewUser name identity user account → FollowsLookups linked user account lookups →
      addLinkedUser services.lower user account input.now current.store.db = .error exception →
      law.admits current call input [.socialSignUp user account lookups] →
      let reported := current.advance call input
        (current.store, [.socialSignUp user account lookups])
      law.guarantee call current reported ∧ post (.error exception) reported) :
    (createUserAsync services linked name identity).wp law call post state := by
  simp only [createUserAsync, Program.wp_bind]
  refine wp_canUseProviderEmail calm ?_
  intro usable asked ask given
  rw [Program.andThen_ok, Program.wp_bind]
  refine Action.calm_draw calm ?_
  intro userDrawn afterUser beforeUser drewUser _
  rw [Program.andThen_ok, Program.wp_bind]
  refine Action.calm_draw calm ?_
  intro stampDrawn afterStamp beforeStamp drewStamp _
  rw [Program.andThen_ok, Program.wp_bind]
  refine Action.calm_draw calm ?_
  intro accountDrawn afterAccount beforeAccount drewAccount _
  have drawn : K state afterAccount := by
    have users := calm.trans _ _ _ ask (calm.trans _ _ _ beforeUser drewUser)
    have stamps := calm.trans _ _ _ users (calm.trans _ _ _ beforeStamp drewStamp)
    exact calm.trans _ _ _ stamps (calm.trans _ _ _ beforeAccount drewAccount)
  have verified : (usable && identity.emailVerified) = true → identity.emailVerified = true ∧
      identity.email =
        some (if usable then identity.email.getD ""
          else placeholderEmail name identity.subject) := by
    intro marked
    obtain ⟨isUsable, asserted⟩ := Bool.and_eq_true_iff.mp marked
    refine ⟨asserted, ?_⟩
    rw [if_pos isUsable]
    exact (given isUsable).2
  have follows : ∀ user account,
      user.email =
        (if usable then identity.email.getD "" else placeholderEmail name identity.subject) →
      account.provider = name → account.providerAccountId = identity.subject →
      FollowsLookups linked user account ⟨linked,
        if isNullOrWhiteSpace identity.email then none else
          some (identity.email.getD "", usable)⟩ := by
    intro user account address provider subject
    refine ⟨rfl, ?_⟩
    cases usable with
    | true =>
        obtain ⟨asks, -⟩ := given rfl
        refine .inl ⟨identity.email.getD "", ?_, address⟩
        rw [asks]
        rfl
    | false =>
        refine .inr ⟨?_, ?_⟩
        · split <;> rfl
        · rw [address, provider, subject]
          rfl
  rw [Program.andThen_ok, Program.wp_bind]
  refine Action.wp_attemptChanges calm ?_ ?_
  · intro current input db rests saved admitted
    exact adds current input _ _ _ db (calm.trans _ _ _ drawn rests)
      ⟨rfl, rfl, verified, rfl, rfl, rfl⟩ (follows _ _ rfl rfl rfl) saved admitted
  · intro current input exception rests refusal admitted
    exact refused current input _ _ _ exception (calm.trans _ _ _ drawn rests)
      ⟨rfl, rfl, verified, rfl, rfl, rfl⟩ (follows _ _ rfl rfl rfl) refusal admitted

end Rules

/-- The rows that a save of a new user adds. -/
theorem addLinkedUser_eq_ok {lower : String → String} {user : User} {account : Account}
    {now : Instant} {db after : Db} (saved : addLinkedUser lower user account now db = .ok after) :
    (∀ other ∈ db.users, other.id ≠ user.id) ∧
      (∀ other ∈ db.users, sameEmail lower other.email user.email = false) ∧
      (∀ other ∈ db.accounts, other.provider = account.provider →
        other.providerAccountId ≠ account.providerAccountId) ∧
      after = { db with
        users := db.users ++ [{ user with createdAt := now, updatedAt := now }]
        userRoles := db.userRoles ++
          [{ userId := user.id, roleId := RoleSeed.userRoleId, createdAt := now, updatedAt := now }]
        accounts := db.accounts ++ [{ account with createdAt := now, updatedAt := now }] } := by
  obtain ⟨-, -, saved⟩ := bind_eq_ok.mp saved
  obtain ⟨withUser, userSaved, saved⟩ := bind_eq_ok.mp saved
  obtain ⟨withRole, roleSaved, saved⟩ := bind_eq_ok.mp saved
  obtain ⟨-, -, saved⟩ := bind_eq_ok.mp saved
  obtain ⟨⟨freshId, freshEmail, -⟩, rfl⟩ := Db.insertUser_eq_ok.mp userSaved
  obtain ⟨-, rfl⟩ := Db.insertUserRole_eq_ok.mp roleSaved
  obtain ⟨⟨-, unlinked, -⟩, rfl⟩ := Db.insertAccount_eq_ok.mp saved
  exact ⟨freshId, freshEmail, unlinked, rfl⟩

/-- Every account is one of a user that exists. -/
def AccountsRefer (db : Db) : Prop :=
  ∀ account ∈ db.accounts, ∃ user ∈ db.users, user.id = account.userId

/-- A saved user is a new target of its identity. -/
theorem addLinkedUser_target {lower : String → String} {name : String}
    {identity : SocialIdentity} {before current after : Db} {user : User} {account : Account}
    {now : Instant} (kept : current.signIns = before.signIns) (refers : AccountsRefer before)
    (rows : NewUser name identity user account)
    (saved : addLinkedUser lower user account now current = .ok after) :
    Target lower name identity before after user.id ∧ after.sessions = before.sessions ∧
      after.refreshTokens = before.refreshTokens := by
  obtain ⟨identities, sessions, tokens, users, userRoles, accounts⟩ := Db.signIns_fields kept
  obtain ⟨freshId, freshEmail, unlinked, rfl⟩ := addLinkedUser_eq_ok saved
  rw [users] at freshId freshEmail
  rw [accounts] at unlinked
  refine ⟨.added { user with createdAt := now, updatedAt := now }
    { account with createdAt := now, updatedAt := now } ?_ rfl, sessions, tokens⟩
  constructor
  case rows =>
    refine ⟨⟨user.id, RoleSeed.userRoleId, now, now⟩, rfl, rfl, ?_⟩
    rw [← users, ← userRoles, ← accounts, ← identities]
    rfl
  case fresh => exact freshId
  case passwordless => exact rows.passwordless
  case provider => exact rows.provider
  case subject => exact rows.subject
  case owner => exact rows.owner
  case unlinked =>
    intro other member same
    rw [← rows.subject]
    exact unlinked other member (same.trans rows.provider.symm)
  case only =>
    intro other member same
    obtain ⟨holder, holderMember, holds⟩ := refers other member
    exact freshId holder holderMember (holds.trans same)
  case verified =>
    intro marked
    obtain ⟨asserted, given⟩ := rows.verified marked
    exact ⟨asserted, given, freshEmail⟩

/-- What the resolution of an identity ends with. -/
def Resolves (lower : String → String) (name : String) (identity : SocialIdentity) (start : State) :
    Except AppException User → State → Prop
  | .ok user, later => Target lower name identity start.store.db later.store.db user.id ∧
      later.store.db.sessions = start.store.db.sessions ∧
      later.store.db.refreshTokens = start.store.db.refreshTokens
  | .error _, later => SignInsKept start later

variable {services : Services} {name : String} {identity : SocialIdentity} {call : ℕ}
variable {start : State}

theorem createUserAsync_adds {linked : Option Guid} {asking : State}
    (refers : AccountsRefer start.store.db) (see : SignInsKept start asking) :
    (createUserAsync services linked name identity).wp .whole call
      (Resolves services.lower name identity start) asking := by
  have calm : Calm .whole call SignInsKept := inferInstance
  refine wp_createUserAsync calm ?_ ?_
  · intro current input user account lookups db reached rows _ saved _
    exact ⟨trivial, addLinkedUser_target (calm.trans _ _ _ see reached) refers rows saved⟩
  · intro current input user account lookups exception reached _ _ _ _
    exact ⟨trivial, calm.trans _ _ _ see reached⟩

theorem resolveUserAsync_resolves {http : HttpContext} {asking : State}
    (refers : AccountsRefer start.store.db) (ask : SignInsKept start asking) :
    (resolveUserAsync services http name identity).wp .whole call
      (Resolves services.lower name identity start) asking := by
  have calm : Calm .whole call SignInsKept := inferInstance
  simp only [resolveUserAsync, Program.wp_bind]
  refine Action.calm_queryOrThrow calm ?_
  intro seen see
  have reached : SignInsKept start seen := calm.trans _ _ _ ask see
  cases found : Action.singleOrDefault (linkedUsers name identity.subject seen.store.db) with
  | error exception => exact reached
  | ok linked =>
  cases linked with
  | some user =>
      obtain ⟨identities, sessions, tokens, -, -, accounts⟩ := Db.signIns_fields reached
      have member : user ∈ linkedUsers name identity.subject seen.store.db :=
        Action.mem_of_singleOrDefault_rows found
      obtain ⟨account, accountMember, provider, subject, -, owner⟩ := mem_linkedUsers.mp member
      rw [accounts] at accountMember
      exact ⟨.linked account accountMember provider subject owner.symm identities, sessions, tokens⟩
  | none =>
      rw [Program.andThen_ok]
      refine Program.wp_bind_of (createUserAsync_adds refers reached) ?_ ?_
      case refine_2 =>
        intro exception current kept
        exact kept
      rintro user created ⟨target, sessions, tokens⟩
      rw [Program.wp_bind]
      refine AuditLogger.wp_logAsync calm ?_
      intro later logged
      obtain ⟨identities, laterSessions, laterTokens, -⟩ := Db.signIns_fields logged
      exact ⟨target.later identities, laterSessions.trans sessions, laterTokens.trans tokens⟩

end SocialAuthService

/-- What a callback comes to. Without an identity it changes nothing that a sign-in is about. -/
inductive CallbackResult (lower : String → String) (host : SocialHost) (answers : ProviderAnswers)
    (provider : String) (query : SocialCallbackQuery) (before after : State) :
    Except AppException LoginResponse → Prop
  | rejected (exception : AppException) (kept : SignInsKept before after) :
      CallbackResult lower host answers provider query before after (.error exception)
  | resolved (outcome : Except AppException LoginResponse) (name : String)
      (identity : SocialIdentity) (userId : Guid)
      (normalized : SocialAuthService.normalizeProvider provider = .ok name)
      (returned : SocialAuthService.identityOf host answers name
        (query.code.getD "") = .ok identity)
      (target : Target lower name identity before.store.db after.store.db userId)
      (opens : OpensFor userId before.store.db after.store.db)
      (signsIn : ∀ response, outcome = .ok response → SignsIn userId response after) :
      CallbackResult lower host answers provider query before after outcome

namespace SocialAuthService

variable {services : Services} {host : SocialHost} {http : HttpContext} {answers : ProviderAnswers}
variable {provider : String} {query : SocialCallbackQuery}

theorem signInAsync_result {name : String} {identity : SocialIdentity} {call : ℕ}
    {start asking : State} (refers : AccountsRefer start.store.db) (ask : SignInsKept start asking)
    (normalized : normalizeProvider provider = .ok name)
    (returned : identityOf host answers name (query.code.getD "") = .ok identity) :
    (signInAsync services http name identity).wp .whole call
      (fun outcome after =>
        CallbackResult services.lower host answers provider query start after outcome) asking := by
  refine Program.wp_bind_of (resolveUserAsync_resolves refers ask) ?_ ?_
  case refine_2 =>
    intro exception current kept
    exact .rejected exception kept
  rintro user resolved ⟨target, sessions, tokens⟩
  have yields : Yields .whole (SigningIn user.id) (SignsIn user.id)
      (AuthenticationSessionFactory.createAsync services http user.id [methodOf name] >>=
        fun response =>
        AuditLogger.logAsync http .loginSucceeded (some user.id) >>= fun _ => pure response) := by
    refine .report (AuthenticationSessionFactory.createAsync_signsIn services http _ _)
      (fun _ => .logAsync http _ _) ?_
    rintro response before after ⟨same, session, member, held⟩ logged
    exact ⟨same, session, logged.mem_sessions member, held⟩
  refine Program.wp_mono (yields call resolved) ?_
  rintro outcome after ⟨kept, signsIn⟩
  have opens : OpensFor user.id start.store.db after.store.db := by
    obtain ⟨opened, issued⟩ := kept.toOpensFor
    rw [sessions] at opened
    rw [tokens] at issued
    exact ⟨opened, issued⟩
  exact .resolved outcome name identity user.id normalized returned (target.later kept.identities)
    opens signsIn

theorem consumeStateAsync_keeps (state : String) :
    Keeps .whole SignInsKept (consumeStateAsync services state) := by
  apply Keeps.bind .utcNow
  intro now
  apply Keeps.bind
  · exact VerificationTokens.consume_frame (fun _ _ => rfl) (fun _ counted => counted) _ _ _ _
  intro _
  exact .ite (.throw _) (.pure _)

theorem callbackAsync_result {call : ℕ} {before : State} (refers : AccountsRefer before.store.db) :
    (callbackAsync services host http answers provider query).wp .whole call
      (fun outcome after =>
        CallbackResult services.lower host answers provider query before after outcome) before := by
  unfold callbackAsync
  cases normalized : normalizeProvider provider with
  | error exception => exact .rejected exception rfl
  | ok name =>
  rw [Program.wp_bind, Program.wp_done, Program.andThen_ok]
  split
  case isTrue => exact .rejected _ rfl
  refine Program.wp_bind_of (consumeStateAsync_keeps _ call before) ?_ ?_
  case refine_2 =>
    intro exception current kept
    exact .rejected exception kept
  intro _ current kept
  rw [Program.wp_bind, Program.wp_done]
  cases returned : identityOf host answers name (query.code.getD "") with
  | error exception => exact .rejected exception kept
  | ok identity => exact signInAsync_result refers kept normalized returned

/-- A callback signs in the user that its identity is linked to, or a new one, and touches no other,
whatever the provider asserts. -/
theorem callbackAsync_takes_over_nobody {call : ℕ} {before after : State}
    {outcome : Except AppException LoginResponse} (refers : AccountsRefer before.store.db)
    (run : (callbackAsync services host http answers provider query).Completes (fun _ _ _ _ => True)
      call before outcome after) :
    CallbackResult services.lower host answers provider query before after outcome :=
  run.post_of_wp (callbackAsync_result refers)

end SocialAuthService

/-- Providers that return this identity for every code. -/
def ProviderAnswers.sample (identity : SocialIdentity) : ProviderAnswers where
  token _ := .content "access"
  googleProfile _ :=
    .content ⟨identity.subject, identity.email, identity.emailVerified, identity.displayName⟩
  gitHubProfile _ := .empty
  gitHubEmails _ := .empty

def SocialHost.sample : SocialHost where
  options := { google := ⟨true, some "client", some "secret"⟩ }
  origin := "https://api.example.test"

/-- A user with a password, and a state token. -/
def victimWorld : World where
  db :=
    { users :=
        [{ id := 1
           email := "ada@example.test"
           emailVerified := true
           passwordHash := some "$secret"
           securityStamp := 7 }]
      verificationTokens :=
        [{ id := 2, type := .socialAuthorizationState, tokenHash := "sha256:state",
           expiresAt := 200 }]
      roles := [{ id := RoleSeed.userRoleId, name := "User" }] }
  supply := 10

namespace SocialAuthService

/-- The provider asserts the address of the user in other letters. -/
def assertedAddress : Option (Except AppException LoginResponse × State) :=
  Program.execute (fun _ _ _ _ => True) 0 (fun _ => ⟨90, false⟩)
    (callbackAsync .sample .sample {}
      (.sample ⟨"7", some "ADA@example.test", true, some "Ada"⟩) "Google"
      { code := some "code", state := some "state" })
    (Shared.initial victimWorld ⟨90, false⟩)

/-- A new user with a placeholder is signed in. -/
def signsInPlaceholder (ended : Except AppException LoginResponse × State) : Bool :=
  ended.1.toOption.any fun response =>
    response.user.id = 10 && response.user.email = "google-7@invalid.local" &&
      !response.user.emailVerified

set_option maxRecDepth 20000 in
theorem assertedAddress_any : assertedAddress.any signsInPlaceholder = true := by decide +kernel

theorem callbackAsync_takes_over_nobody_sample :
    ∃ outcome after, assertedAddress = some (outcome, after) ∧
      signsInPlaceholder (outcome, after) = true ∧
      CallbackResult Services.sample.lower .sample
        (.sample ⟨"7", some "ADA@example.test", true, some "Ada"⟩) "Google"
        { code := some "code", state := some "state" }
          (Shared.initial victimWorld ⟨90, false⟩) after
        outcome := by
  obtain ⟨⟨outcome, after⟩, ended, signsIn⟩ := (Option.any_eq_true _ _).mp assertedAddress_any
  refine ⟨outcome, after, ended, signsIn, ?_⟩
  exact callbackAsync_takes_over_nobody (fun _ member => nomatch member)
    (Program.completes_of_execute ended)

end SocialAuthService

end AuthStartpack
