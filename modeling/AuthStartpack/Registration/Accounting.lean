import AuthStartpack.Program.Account
import AuthStartpack.Services.Auth.RegistrationService

/-!
Owns what registrations of one address make of the database: each reported save
adds a user with the role of every user, or a verification token, and nothing
else is changed. An address is registered at most once, whoever comes first.
-/

namespace AuthStartpack

/-! ### The address -/

section SameEmail

variable {lower : String → String} {left middle right : String}

theorem sameEmail_comm (same : sameEmail lower left right = true) :
    sameEmail lower right left = true := by
  simp only [sameEmail, decide_eq_true_eq] at same ⊢
  exact same.symm

theorem sameEmail_trans (early : sameEmail lower left middle = true)
    (late : sameEmail lower middle right = true) : sameEmail lower left right = true := by
  simp only [sameEmail, decide_eq_true_eq] at early late ⊢
  exact early.trans late

/-- Spellings of one address are compared alike. -/
theorem sameEmail_congr (same : sameEmail lower middle right = true) :
    (sameEmail lower · middle) = (sameEmail lower · right) := by
  funext other
  simp only [sameEmail, decide_eq_true_eq] at same ⊢
  rw [same]

end SameEmail

/-- The users with this address. -/
def Db.usersOf (lower : String → String) (email : String) (db : Db) : List User :=
  db.users.filter (sameEmail lower ·.email email)

/-- The database without the audit log. -/
def Db.unlogged (db : Db) : Db := { db with auditLogEntries := [] }

/-! ### Steps and paths -/

namespace Registration

variable {lower : String → String}

/-- What a reported event makes of the database: it adds a user with a role whose address is free,
or a verification token, or nothing. -/
inductive Allowed (lower : String → String) (email : String) : Db → Event → Db → Prop
  | registered {before : Db} {user : User} (now : Instant)
      (address : sameEmail lower user.email email = true)
      (unused : ∀ other ∈ before.users, other.id ≠ user.id)
      (free : before.usersOf lower email = []) :
      Allowed lower email before (.userRegistered user) { before with
        users := before.users ++ [{ user with createdAt := now, updatedAt := now }]
        userRoles := before.userRoles ++
          [{ userId := user.id, roleId := RoleSeed.userRoleId, createdAt := now,
             updatedAt := now }] }
  | issued {before : Db} {token : VerificationToken} (now : Instant) :
      Allowed lower email before (.verificationTokenIssued token) { before with
        verificationTokens :=
          before.verificationTokens ++ [{ token with createdAt := now, updatedAt := now }] }
  | hashed {before : Db} : Allowed lower email before .passwordHashed before
  | mailed {before : Db} {message : EmailMessage} :
      Allowed lower email before (.emailQueued message) before

/-- The user that an event reports as registered. -/
def registered? : Event → Option User
  | .userRegistered user => some user
  | _ => none

theorem registered?_eq_some {event : Event} {user : User} :
    registered? event = some user ↔ event = .userRegistered user := by
  unfold registered?
  split <;> simp_all

/-- What becomes of the database along a path, with the users registered on it. -/
inductive Becomes (lower : String → String) (email : String) (before : Db) : List User → Db → Prop
  | tokens (added : List VerificationToken) :
      Becomes lower email before [] { before with
        verificationTokens := before.verificationTokens ++ added }
  | account (user : User) (now : Instant) (added : List VerificationToken)
      (address : sameEmail lower user.email email = true)
      (unused : ∀ other ∈ before.users, other.id ≠ user.id)
      (free : before.usersOf lower email = []) :
      Becomes lower email before [user] { before with
        users := before.users ++ [{ user with createdAt := now, updatedAt := now }]
        userRoles := before.userRoles ++
          [{ userId := user.id, roleId := RoleSeed.userRoleId, createdAt := now, updatedAt := now }]
        verificationTokens := before.verificationTokens ++ added }

/-- A path adds at most one user. -/
theorem becomes_of_leads {email : String} {before after : Db} {events : List Event}
    (leads : Leads (Allowed lower email) before events after) :
    Becomes lower email before (events.filterMap registered?) after := by
  induction leads with
  | nil state =>
      have unchanged : Becomes lower email state []
          { state with verificationTokens := state.verificationTokens ++ [] } := .tokens []
      rw [List.append_nil] at unchanged
      exact unchanged
  | @cons first second third label labels step rest inductionHypothesis =>
      cases step with
      | hashed => exact inductionHypothesis
      | mailed => exact inductionHypothesis
      | issued now =>
          simp only [List.filterMap_cons, registered?]
          generalize labels.filterMap registered? = users at inductionHypothesis ⊢
          cases inductionHypothesis with
          | tokens added =>
              simp only [List.append_assoc]
              exact .tokens _
          | account user registeredAt added address unused free =>
              simp only [List.append_assoc]
              exact .account user registeredAt _ address unused free
      | @registered user now address unused free =>
          simp only [List.filterMap_cons, registered?]
          generalize labels.filterMap registered? = users at inductionHypothesis ⊢
          cases inductionHypothesis with
          | tokens added => exact .account user now added address unused free
          | account other registeredAt added otherAddress otherUnused taken =>
              simp [Db.usersOf, address] at taken

/-- The constraints of the schema that a registration depends on, and the seeded role. -/
structure Registrable (lower : String → String) (email : String) (db : Db) : Prop where
  unique : (db.usersOf lower email).length ≤ 1
  assigned : ∀ row ∈ db.userRoles, ∃ user ∈ db.users, user.id = row.userId
  role : ∃ role ∈ db.roles, role.id = RoleSeed.userRoleId

section Becomes

variable {email : String} {before after : Db} {added : List User}

theorem Becomes.registrable (becomes : Becomes lower email before added after)
    (holds : Registrable lower email before) : Registrable lower email after := by
  cases becomes with
  | tokens added => exact ⟨holds.unique, holds.assigned, holds.role⟩
  | account user now added address unused free =>
      refine ⟨?_, ?_, holds.role⟩
      · unfold Db.usersOf at free ⊢
        rw [List.filter_append, free]
        simp [address]
      · intro row member
        rcases List.mem_append.mp member with old | new
        · obtain ⟨owner, ownerMember, same⟩ := holds.assigned row old
          exact ⟨owner, List.mem_append_left _ ownerMember, same⟩
        · rw [List.mem_singleton.mp new]
          exact ⟨_, List.mem_append_right _ List.mem_cons_self, rfl⟩

/-- Users stay as they are. -/
theorem Becomes.users (becomes : Becomes lower email before added after) :
    before.users <+: after.users := by
  cases becomes with
  | tokens added => exact List.prefix_refl _
  | account => exact List.prefix_append _ _

/-- Nobody registers an address that is taken. -/
theorem Becomes.of_taken (becomes : Becomes lower email before added after)
    (taken : before.usersOf lower email ≠ []) : added = [] ∧
      after.usersOf lower email = before.usersOf lower email := by
  cases becomes with
  | tokens => exact ⟨rfl, rfl⟩
  | account user now tokens address unused free => exact absurd free taken

/-- An address that was free has been registered once, with one role. -/
theorem Becomes.of_free (becomes : Becomes lower email before added after)
    (holds : Registrable lower email before)
    (free : before.usersOf lower email = []) {account : User}
    (found : after.usersOf lower email = [account]) :
    (∃ user, added = [user]) ∧
      (after.userRoles.filter (·.userId = account.id)).map (·.roleId) = [RoleSeed.userRoleId] := by
  cases becomes with
  | tokens => exact nomatch free.symm.trans found
  | account user now tokens address unused =>
      have row : account.id = user.id := by
        unfold Db.usersOf at free found
        rw [List.filter_append, free] at found
        simp only [address, List.filter_cons_of_pos, List.filter_nil, List.nil_append,
          List.cons.injEq, and_true] at found
        rw [← found]
      have unassigned : before.userRoles.filter (·.userId = account.id) = [] := by
        refine List.filter_eq_nil_iff.mpr ?_
        intro role member same
        obtain ⟨other, otherMember, owns⟩ := holds.assigned role member
        exact unused other otherMember (owns.trans ((decide_eq_true_eq.mp same).trans row))
      refine ⟨⟨user, rfl⟩, ?_⟩
      rw [List.filter_append, unassigned]
      simp [row]

end Becomes

/-! ### Registrations in flight -/

/-- The reported events account for the database. -/
abbrev Accounted (lower : String → String) (email : String) : State → State → Prop :=
  Accounts (Allowed lower email) fun world => world.db.unlogged

section Accounted

variable {email : String} {before after : State}

theorem Accounted.becomes (accounted : Accounted lower email before after) :
    ∃ users, Becomes lower email before.store.db.unlogged users after.store.db.unlogged := by
  obtain ⟨added, -, leads⟩ := accounted
  exact ⟨_, becomes_of_leads leads⟩

theorem Accounted.registrable (accounted : Accounted lower email before after)
    (holds : Registrable lower email before.store.db) : Registrable lower email after.store.db := by
  obtain ⟨users, becomes⟩ := accounted.becomes
  have kept := becomes.registrable ⟨holds.unique, holds.assigned, holds.role⟩
  exact ⟨kept.unique, kept.assigned, kept.role⟩

theorem Accounted.users (accounted : Accounted lower email before after) {user : User}
    (member : user ∈ before.store.db.users) : user ∈ after.store.db.users := by
  obtain ⟨users, becomes⟩ := accounted.becomes
  exact becomes.users.subset member

theorem Accounted.taken (accounted : Accounted lower email before after)
    (taken : before.store.db.usersOf lower email ≠ []) :
      after.store.db.usersOf lower email ≠ [] := by
  obtain ⟨user, member⟩ := List.exists_mem_of_ne_nil _ taken
  obtain ⟨stored, same⟩ := List.mem_filter.mp member
  exact List.ne_nil_of_mem (List.mem_filter.mpr ⟨accounted.users stored, same⟩)

end Accounted

end Registration

end AuthStartpack
