import AuthStartpack.Recovery.Unambiguous

/-!
Owns the accounts that no anonymous operation verifies: once the verification
tokens of an unverified user have lapsed, only a new one could verify it, and no
anonymous operation issues one for a user that exists.
-/

namespace AuthStartpack

/-- A token that can still be consumed for this user. -/
def VerificationToken.Live (type : VerificationTokenType) (userId : Guid) (now : Instant)
    (token : VerificationToken) : Prop :=
  token.type = type ∧ token.userId = some userId ∧ token.consumedAt = none ∧ now < token.expiresAt

instance VerificationToken.decidableLive (type : VerificationTokenType) (userId : Guid)
    (now : Instant) (token : VerificationToken) :
    Decidable (token.Live type userId now) :=
  inferInstanceAs (Decidable (_ ∧ _ ∧ _ ∧ _))

/-- The user is not verified, and no token can verify it. -/
structure Unverifiable (userId : Guid) (state : State) : Prop where
  stored : ∃ user ∈ state.store.db.users, user.id = userId
  unverified : ∀ user ∈ state.store.db.users, user.id = userId → user.emailVerified = false
  lapsed : ∀ token ∈ state.store.db.verificationTokens,
    ¬ token.Live .emailVerification userId state.last.now

/-- What every step of an anonymous operation keeps, as the clock goes on. -/
structure StaysUnverifiable (before after : State) : Prop where
  clock : before.last.now ≤ after.last.now
  stays : ∀ userId, Unverifiable userId before → Unverifiable userId after

/-- Operations that run one after the other under a clock that goes on. -/
abbrev Law.onward : Law Input World Event := .alone Onward fun _ _ => True

namespace StaysUnverifiable

theorem refl (state : State) : StaysUnverifiable state state := ⟨Int.le_refl _, fun _ => id⟩

theorem trans {first second third : State} (early : StaysUnverifiable first second)
    (late : StaysUnverifiable second third) : StaysUnverifiable first third :=
  ⟨Int.le_trans early.clock late.clock, fun userId stuck =>
    late.stays userId (early.stays userId stuck)⟩

/-- The tables that decide who can be verified. -/
def tables (db : Db) : List User × List VerificationToken := (db.users, db.verificationTokens)

/-- A step, from what it makes of the tables. -/
theorem of_tables {before after : State} (clock : before.last.now ≤ after.last.now)
    (users : ∀ userId, (∃ user ∈ before.store.db.users, user.id = userId) →
      (∃ user ∈ after.store.db.users, user.id = userId) ∧
        ((∀ user ∈ before.store.db.users, user.id = userId → user.emailVerified = false) →
          ∀ user ∈ after.store.db.users, user.id = userId → user.emailVerified = false))
    (tokens : ∀ userId, (∃ user ∈ before.store.db.users, user.id = userId) →
      ∀ token ∈ after.store.db.verificationTokens,
        token.Live .emailVerification userId before.last.now →
        token ∈ before.store.db.verificationTokens) :
    StaysUnverifiable before after := by
  refine ⟨clock, ?_⟩
  intro userId stuck
  obtain ⟨stored, unverified⟩ := users userId stuck.stored
  refine ⟨stored, unverified stuck.unverified, ?_⟩
  intro token member verifies
  obtain ⟨type, owner, unconsumed, live⟩ := verifies
  have earlier : token.Live .emailVerification userId before.last.now :=
    ⟨type, owner, unconsumed, Int.lt_of_le_of_lt clock live⟩
  exact stuck.lapsed token (tokens userId stuck.stored token member earlier) earlier

/-- A step that leaves the tables alone. -/
theorem of_same {before after : State} (clock : before.last.now ≤ after.last.now)
    (same : tables after.store.db = tables before.store.db) : StaysUnverifiable before after := by
  simp only [tables, Prod.mk.injEq] at same
  obtain ⟨users, tokens⟩ := same
  refine of_tables clock ?_ ?_
  · intro userId stored
    rw [users]
    exact ⟨stored, id⟩
  · intro userId _ token member _
    exact tokens ▸ member

end StaysUnverifiable

instance : Frames .onward StaysUnverifiable StaysUnverifiable.tables fun _ => False where
  calm call :=
    { refl := StaysUnverifiable.refl
      trans := fun _ _ _ early late => early.trans late
      rely := fun before _ same => same ▸ .refl before
      quiet := by
        intro state input world onward step
        obtain ⟨auditLogEntries, equal⟩ := step.db
        refine ⟨trivial, .of_same onward ?_⟩
        rw [Shared.advance_store, equal]
        rfl }
  frame call state input world events onward same _ _ := ⟨trivial, .of_same onward same⟩

/-! ### Verification tokens -/

namespace VerificationTokens

/-- A token of another type verifies nobody. -/
theorem store_staysUnverifiable {services : Services} {type : VerificationTokenType}
    (other : type ≠ .emailVerification) (userId : Option Guid) (lifetime : Duration)
    (report : VerificationToken → List Event) :
    Keeps .onward StaysUnverifiable (store services userId type lifetime report) := by
  apply Keeps.bind .draw
  intro plaintext
  apply Keeps.bind .utcNow
  intro now
  apply Keeps.bind .draw
  intro id
  apply Keeps.bind
  · refine .saveChanges ?_
    rintro call start current input db rfl saved onward
    refine ⟨trivial, .of_tables onward ?_ ?_⟩
    · intro owner stored
      obtain ⟨verificationTokens, rfl⟩ := Db.insertVerificationToken_ok saved
      exact ⟨stored, fun unverified => unverified⟩
    · intro owner _ token member verifies
      obtain ⟨rows, inserted, equal⟩ := bind_eq_ok.mp saved
      rw [pure_eq_ok.mp equal] at member
      rw [(insertRow_eq_ok.mp inserted).2] at member
      rcases List.mem_append.mp member with old | new
      · exact old
      · rw [List.mem_singleton.mp new] at verifies
        exact absurd verifies.1 other
  intro _
  exact .pure _

theorem consume_staysUnverifiable (type : VerificationTokenType) (consumer : TokenConsumer) :
    ConsumesKept .onward StaysUnverifiable type consumer := by
  intro hash now requires
  unfold consume
  refine .execute ?_
  rintro call start current input rfl onward
  refine ⟨trivial, .of_tables onward (fun _ stored => ⟨stored, fun unverified => unverified⟩) ?_⟩
  intro owner _ token member verifies
  rcases Table.mem_updateWhere_cases member with ⟨old, -⟩ | ⟨old, oldMember, hit, rfl⟩
  · exact old
  · exact absurd verifies.2.2.1 nofun

end VerificationTokens

/-! ### Saves of users -/

/-- An update that leaves the verification alone, or that is of another user. -/
theorem Unverifiable.updateUser {userId : Guid} {state : State} {call : ℕ} {input : Input}
    {events : List Event} {original current : User} {db : Db} (stuck : Unverifiable userId state)
    (onward : state.last.now ≤ input.now)
    (saved : state.store.db.updateUser input.now original current = .ok db)
    (harmless : current.emailVerified = original.emailVerified ∨ original.id ≠ userId) :
    Unverifiable userId (state.advance call input ({ state.store with db }, events)) := by
  obtain ⟨-, rfl⟩ := Db.updateUser_eq_ok.mp saved
  constructor
  case stored =>
    refine exists_updateWhere ?_ stuck.stored
    exact fun _ => rfl
  case unverified =>
    intro user member own
    rcases Table.mem_updateWhere_cases member with ⟨old, -⟩ | ⟨old, oldMember, hit, rfl⟩
    · exact stuck.unverified user old own
    · have before := stuck.unverified old oldMember own
      rcases harmless with same | other
      · simp only [User.merge, same, changed_self]
        exact before
      · simp only [Bool.and_eq_true, decide_eq_true_eq] at hit
        exact absurd (hit.1.symm.trans own) other
  case lapsed =>
    intro token member verifies
    obtain ⟨type, owner, unconsumed, live⟩ := verifies
    exact stuck.lapsed token member ⟨type, owner, unconsumed, Int.lt_of_le_of_lt onward live⟩

theorem updates_staysUnverifiable {original current : User} {events : Db → List Event}
    (same : current.emailVerified = original.emailVerified) :
    Keeps .onward StaysUnverifiable
      (Action.saveChanges (fun now db => db.updateUser now original current) events) := by
  refine .saveChanges ?_
  rintro call start current input db rfl saved onward
  exact ⟨trivial, onward, fun _ stuck => stuck.updateUser onward saved (.inl same)⟩

/-- A new user is nobody who is stored already. -/
theorem added_user {users : List User} (user : User) (fresh : ∀ other ∈ users, other.id ≠ user.id)
    {userId : Guid} (stored : ∃ other ∈ users, other.id = userId) :
    (∃ other ∈ users ++ [user], other.id = userId) ∧
      ((∀ other ∈ users, other.id = userId → other.emailVerified = false) →
        ∀ other ∈ users ++ [user], other.id = userId → other.emailVerified = false) := by
  obtain ⟨other, member, own⟩ := stored
  refine ⟨⟨other, List.mem_append_left _ member, own⟩, ?_⟩
  intro unverified later laterMember laterOwn
  rcases List.mem_append.mp laterMember with old | new
  · exact unverified later old laterOwn
  · rw [List.mem_singleton.mp new] at laterOwn
    exact absurd (own.trans laterOwn.symm) (fresh other member)

theorem registers_staysUnverifiable {services : Services} {request : RegisterRequest} {user : User}
    {token : VerificationToken} (registers : Registers request user token) :
    Keeps .onward StaysUnverifiable
      (Action.saveChanges (RegistrationService.addUser services.lower user token)
        fun _ => [.userRegistered user, .verificationTokenIssued token]) := by
  refine .saveChanges ?_
  rintro call start current input db rfl saved onward
  obtain ⟨-, -, saved⟩ := bind_eq_ok.mp saved
  obtain ⟨withUser, userSaved, saved⟩ := bind_eq_ok.mp saved
  obtain ⟨withRole, roleSaved, saved⟩ := bind_eq_ok.mp saved
  obtain ⟨⟨fresh, -⟩, rfl⟩ := Db.insertUser_eq_ok.mp userSaved
  obtain ⟨-, rfl⟩ := Db.insertUserRole_eq_ok.mp roleSaved
  obtain ⟨rows, inserted, equal⟩ := bind_eq_ok.mp saved
  obtain rfl := pure_eq_ok.mp equal
  refine ⟨trivial, .of_tables onward ?_ ?_⟩
  · intro userId stored
    exact added_user { user with createdAt := input.now, updatedAt := input.now } fresh stored
  · intro userId stored other member verifies
    dsimp only [Shared.advance_store] at member
    rw [(insertRow_eq_ok.mp inserted).2] at member
    rcases List.mem_append.mp member with old | new
    · exact old
    · rw [List.mem_singleton.mp new] at verifies
      have own : some user.id = some userId := registers.owner.symm.trans verifies.2.1
      obtain ⟨row, rowMember, rowOwn⟩ := stored
      exact absurd (rowOwn.trans (Option.some.inj own).symm) (fresh row rowMember)

theorem social_staysUnverifiable (services : Services) (linked : Option Guid) (name : String)
    (identity : SocialIdentity) : Keeps .onward StaysUnverifiable
      (SocialAuthService.createUserAsync services linked name identity) := by
  apply Keeps.bind
  · exact .ite (.pure _) (.query _)
  intro _
  apply Keeps.bind .draw
  intro drawn
  apply Keeps.bind .draw
  intro _
  apply Keeps.bind .draw
  intro _
  apply Keeps.bind
  · intro call start
    refine Action.wp_attemptChanges (K := StaysUnverifiable) inferInstance ?_ ?_
    · intro current input db reached saved onward
      obtain ⟨fresh, -, -, equal⟩ := SocialAuthService.addLinkedUser_eq_ok saved
      refine ⟨trivial, reached.trans (.of_tables onward ?_ ?_)⟩
      · intro userId stored
        dsimp only [Shared.advance_store]
        rw [equal]
        refine added_user _ ?_ stored
        exact fresh
      · intro userId stored token member _
        dsimp only [Shared.advance_store] at member
        rw [equal] at member
        exact member
    · intro current input exception reached _ onward
      exact ⟨trivial, reached.trans (.of_same onward rfl)⟩
  intro _
  exact .pure _

/-! ### The confirmation of an address -/

/-- The user that a consumed token verifies is not one whose tokens have lapsed. -/
theorem owner_of_consumed {read : State} {hash : String} {userId : Guid} {owner : Option Guid}
    (stuck : Unverifiable userId read) {hit : VerificationToken}
    (member : hit ∈ read.store.db.verificationTokens)
    (consumable : VerificationTokens.consumable hash .emailVerification read.last.now
      (fun _ => true)
      hit = true)
    (found : Action.single (((Table.updateWhere
      (VerificationTokens.consumable hash .emailVerification read.last.now fun _ => true)
      ({ · with consumedAt := some read.last.now }) read.store.db.verificationTokens).filter
        (·.tokenHash = hash)).map (·.userId)) = .ok owner) : owner ≠ some userId := by
  let mark (token : VerificationToken) : VerificationToken :=
    { token with consumedAt := some read.last.now }
  have marked : mark hit ∈ Table.updateWhere (VerificationTokens.consumable hash .emailVerification
      read.last.now fun _ => true) mark read.store.db.verificationTokens :=
    Table.mem_updateWhere_of_hit member consumable
  simp only [VerificationTokens.consumable, Bool.and_eq_true, decide_eq_true_eq] at consumable
  obtain ⟨⟨⟨⟨sameHash, type⟩, -⟩, unconsumed⟩, live⟩ := consumable
  have kept : mark hit ∈ List.filter (·.tokenHash = hash) _ :=
    List.mem_filter.mpr ⟨marked, decide_eq_true sameHash⟩
  have owned := List.mem_map_of_mem (f := VerificationToken.userId) kept
  rw [Action.single_eq_ok.mp found, List.mem_singleton] at owned
  rintro rfl
  exact stuck.lapsed hit member ⟨type, owned, unconsumed, live⟩

namespace EmailVerificationService

/-- The verification of a user that is not one of those whose tokens had lapsed. -/
theorem verifyOwnerAsync_staysUnverifiable {http : HttpContext} {hash : String} {now : Instant}
    {call : ℕ} {start marked : State} (reached : StaysUnverifiable start marked)
    (other : ∀ userId owner, Unverifiable userId start →
      Action.single
        ((marked.store.db.verificationTokens.filter (·.tokenHash = hash)).map (·.userId)) =
        .ok owner → owner ≠ some userId) :
    (verifyOwnerAsync http hash now).wp .onward call (fun _ after => StaysUnverifiable start after)
      marked := by
  rw [verifyOwnerAsync, Program.wp_bind]
  refine alone_queryOrThrow ?_
  intro second secondOnward
  have seen : StaysUnverifiable start (marked.observed second) :=
    reached.trans (.of_same secondOnward rfl)
  cases found : Action.single ((marked.store.db.verificationTokens.filter (·.tokenHash = hash)).map
      (·.userId)) with
  | error exception => exact seen
  | ok owner =>
  rw [Program.andThen_ok, Program.wp_bind]
  refine alone_queryOrThrow ?_
  intro third thirdOnward
  have selected : StaysUnverifiable start ((marked.observed second).observed third) :=
    seen.trans (.of_same thirdOnward rfl)
  cases isOwner : Action.single (marked.store.db.users.filter fun candidate =>
      some candidate.id = owner) with
  | error exception =>
      dsimp only [Shared.observed_store]
      rw [isOwner]
      exact selected
  | ok user =>
  dsimp only [Shared.observed_store]
  rw [isOwner, Program.andThen_ok, Program.wp_bind]
  refine alone_saveChanges ?_ ?_
  · intro saving db saved savingOnward
    refine Keeps.after (.bind (.logAsync http _ _) fun _ => .pure _) ?_
    refine ⟨Int.le_trans selected.clock savingOnward, fun userId stuck => ?_⟩
    refine (selected.stays userId stuck).updateUser savingOnward saved (.inr ?_)
    have own := (Action.mem_of_single isOwner).2
    simp only [decide_eq_true_eq] at own
    rintro rfl
    exact other _ _ stuck found own.symm
  · intro saving exception _ savingOnward
    exact selected.trans (.of_same savingOnward rfl)

/-- The token that was consumed is of somebody else, and so is the user that it verifies. -/
theorem confirmAsync_staysUnverifiable {services : Services} (http : HttpContext) (token : String) :
    Keeps .onward StaysUnverifiable (confirmAsync services http token) := by
  intro call start
  have calm : Calm .onward call StaysUnverifiable := inferInstance
  rw [confirmAsync, Program.wp_bind]
  refine Action.calm_utcNow calm ?_
  intro read reading
  rw [Program.andThen_ok, Program.wp_bind]
  rintro current rfl input onward
  have consumed := (VerificationTokens.consume_staysUnverifiable .emailVerification
    .emailVerification
    (services.tokenGenerator.hash token) read.last.now
      (fun _ => true) call read read rfl input onward).2
  refine ⟨trivial, ?_⟩
  change Program.andThen _ call _ _ (.ok _) _
  rw [Program.andThen_ok]
  by_cases none : read.store.db.verificationTokens.countP (VerificationTokens.consumable
      (services.tokenGenerator.hash token) .emailVerification read.last.now fun _ => true) = 0
  case pos =>
    rw [if_pos none]
    exact reading.trans consumed
  case neg =>
    rw [if_neg none]
    obtain ⟨hit, member, consumable⟩ := List.countP_pos_iff.mp (Nat.pos_of_ne_zero none)
    refine verifyOwnerAsync_staysUnverifiable (reading.trans consumed) ?_
    intro userId owner stuck found
    exact owner_of_consumed (reading.stays userId stuck) member consumable found

end EmailVerificationService

/-! ### Anonymous operations -/

theorem ServiceOperation.staysUnverifiable {services : Services} {fido2 : Fido2}
    {op : ServiceOperation} (anonymous : op.anonymous = true) :
    Keeps .onward StaysUnverifiable (op.program services fido2) := by
  have consumes := VerificationTokens.consume_staysUnverifiable
  have stores : ∀ type ≠ .emailVerification, StoresKept .onward StaysUnverifiable services type :=
    fun _ other _ _ => VerificationTokens.store_staysUnverifiable other _ _ _
  cases op with
  | register http request =>
      refine .bind ?_ fun _ => .pure _
      refine RegistrationService.registerAsync_frame (fun _ => ?_) (fun _ => id) id
        fun _ _ => registers_staysUnverifiable
      exact VerificationTokens.store_staysUnverifiable (by decide) _ _ _
  | login http email password =>
      refine .bind ?_ fun _ => .pure _
      refine LoginService.loginAsync_frame (fun original current events updates _ => ?_)
        (fun _ _ => rfl)
        (fun _ _ => rfl) (stores _ (by decide)) email password
      exact updates_staysUnverifiable (by rw [updates.same])
  | completeMfa http mfaTicket code =>
      refine .bind ?_ fun _ => .pure _
      exact LoginService.completeMfaAsync_frame (fun _ _ => rfl) (fun _ _ => rfl) (fun _ _ => rfl)
        (fun _ _ => rfl) (consumes _ _) (fun _ _ => id) (fun _ => id) mfaTicket code
  | refresh http cookieToken bodyToken =>
      refine .bind ?_ fun _ => .pure _
      exact RefreshTokenService.refreshAsync_frame (fun _ _ => rfl) (fun _ _ => rfl) (fun _ _ => id)
        services http cookieToken bodyToken
  | confirmEmail http token =>
      exact .bind (EmailVerificationService.confirmAsync_staysUnverifiable http token)
        fun _ => .pure _
  | requestReset http email =>
      exact PasswordResetService.requestAsync_frame (stores _ (by decide)) http email
  | confirmReset http token newPassword =>
      exact PasswordResetService.confirmAsync_frame (fun _ _ _ => updates_staysUnverifiable rfl)
        (fun _ _ => rfl) (consumes _ _) token newPassword
  | socialAuthorize host provider =>
      refine .bind ?_ fun _ => .pure _
      exact SocialAuthService.authorizeAsync_frame (stores _ (by decide)) host provider
  | socialCallback host http answers provider query =>
      refine .bind ?_ fun _ => .pure _
      exact SocialAuthService.callbackAsync_frame (fun _ _ => rfl) (fun _ _ => rfl) (consumes _ _)
        services (social_staysUnverifiable services) host http answers provider query
  | passkeyAuthenticationOptions =>
      refine .bind ?_ fun _ => .pure _
      exact PasskeyService.authenticationOptionsAsync_frame (stores _ (by decide))
  | passkeyAuthentication http request =>
      refine .bind ?_ fun _ => .pure _
      exact PasskeyService.completeAuthenticationAsync_frame (fun _ _ => rfl) (fun _ _ => rfl)
        (fun _ _ => rfl) (consumes _ _) (fun _ _ => id) services fido2 http request
  | _ => cases anonymous

end AuthStartpack
