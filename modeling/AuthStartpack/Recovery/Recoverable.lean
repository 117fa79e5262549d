import AuthStartpack.Recovery.Unverifiable
import AuthStartpack.Registration.Accounting

/-!
Owns the recovery of an account by the reader of its mailbox: the anonymous
operations that present nothing but mailed tokens, and the login that they lead
to. A password reset is always possible. The address is verified only by a token
that is still live, and none is mailed to a user who cannot log in.
-/

namespace AuthStartpack

/-- The one-time tokens that the request carries. -/
def ServiceOperation.presents : ServiceOperation → List String
  | completeMfa _ mfaTicket _ => [mfaTicket]
  | refresh _ cookieToken bodyToken => cookieToken.toList ++ bodyToken.toList
  | confirmEmail _ token | confirmReset _ token _ => [token]
  | socialCallback _ _ _ _ query => query.state.toList
  | passkeyRegistration _ request _ | passkeyAuthentication _ request => request.challenge.toList
  | _ => []

/-- A message with this token was queued to the address. -/
def Mailed (address token : String) (state : State) : Prop :=
  ∃ message ∈ state.store.outbox, message.recipient = address ∧ ("Token", token) ∈ message.values

instance (address token : String) (state : State) : Decidable (Mailed address token state) :=
  inferInstanceAs (Decidable (∃ message ∈ state.store.outbox, _))

/-- `LoginAsync` with this password finds the account, accepts the password and finds the address
verified. -/
def LoginService.passesChecks (services : Services) (account : User) (password : String) (db : Db) :
    Bool :=
  match Action.singleOrDefault (withEmail services (trim account.email) db) with
  | .ok (some (user, _)) =>
      user.id = account.id && user.passwordHash.any (services.passwordHasher.verify password) &&
        user.emailVerified
  | _ => false

abbrev OperationRecord := Record ServiceOperation Input World Event AppException Unit

/-- Anonymous operations of somebody who has no other tokens than those mailed to the account. -/
structure Recovery (services : Services) (fido2 : Fido2) (account : User) (start : State)
    (history : List OperationRecord) (final : State) : Prop where
  runs : RunsTo Onward (ServiceOperation.program services fido2) start history final
  anonymous : ∀ record ∈ history, record.op.anonymous = true
  mailed : ∀ record ∈ history, ∀ token ∈ record.op.presents,
    Mailed account.email token record.before

/-- Some such operations lead to a password with which the login passes its checks. -/
def Recoverable (services : Services) (fido2 : Fido2) (account : User) (start : State) : Prop :=
  ∃ history final password, Recovery services fido2 account start history final ∧
    LoginService.passesChecks services account password final.store.db = true

/-! ### One operation of a recovery -/

/-- The clock stands still. -/
def Standing (state : State) (_ : ℕ) (input : Input) (_ : List Event) : Prop :=
  input.now = state.last.now

/-- Operations that run one after the other while the clock stands still. -/
abbrev Law.standing : Law Input World Event := .alone Standing fun _ _ => True

/-- Up to its next write, such an operation finds what it left, at the same time. -/
structure Meanwhile (before after : State) : Prop where
  store : QuietStep before.store after.store
  clock : after.last.now = before.last.now

theorem Meanwhile.refl (state : State) : Meanwhile state state := ⟨.refl _, rfl⟩

theorem Meanwhile.trans {first second third : State} (early : Meanwhile first second)
    (late : Meanwhile second third) : Meanwhile first third :=
  ⟨early.store.trans late.store, late.clock.trans early.clock⟩

theorem Meanwhile.users {before after : State} (meanwhile : Meanwhile before after) :
    after.store.db.users = before.store.db.users := by
  obtain ⟨auditLogEntries, equal⟩ := meanwhile.store.db
  rw [equal]

theorem Meanwhile.tokens {before after : State} (meanwhile : Meanwhile before after) :
    after.store.db.verificationTokens = before.store.db.verificationTokens := by
  obtain ⟨auditLogEntries, equal⟩ := meanwhile.store.db
  rw [equal]

theorem Calm.standing (call : ℕ) : Calm .standing call Meanwhile where
  refl := .refl
  trans _ _ _ := .trans
  rely _ _ same := same ▸ .refl _
  quiet _ _ _ admitted step := ⟨trivial, step, admitted⟩

/-- The next operation of a recovery, while the clock stands still. -/
theorem Recovery.next {services : Services} {fido2 : Fido2} {account : User} {start current : State}
    {history : List OperationRecord}
    (recovery : Recovery services fido2 account start history current)
    (op : ServiceOperation) (anonymous : op.anonymous = true)
    (mailed : ∀ token ∈ op.presents, Mailed account.email token current) :
    ∃ outcome after,
      (op.program services fido2).Completes Standing history.length current outcome after ∧
        Recovery services fido2 account start
          (history ++ [⟨op, current, outcome, after⟩]) after := by
  obtain ⟨outcome, after, completes⟩ := @Program.exists_completes _ _ _ _ _ Standing history.length
    (fun shared _ => ⟨shared.last, rfl⟩) (op.program services fido2) current
  have onward : (op.program services fido2).Completes Onward history.length current outcome after :=
    completes.of_journal fun shared input _ still _ => Int.le_of_eq still.symm
  refine ⟨outcome, after, completes, recovery.runs.snoc op onward, ?_, ?_⟩
  · intro record member
    rcases List.mem_append.mp member with old | new
    · exact recovery.anonymous record old
    · rw [List.mem_singleton.mp new]
      exact anonymous
  · intro record member
    rcases List.mem_append.mp member with old | new
    · exact recovery.mailed record old
    · rw [List.mem_singleton.mp new]
      exact mailed

/-! ### What the operations find -/

namespace Db.Indexed

variable {lower : String → String} {db : Db}

/-- An address finds the one user that has it. -/
theorem filter_email (indexed : db.Indexed lower) {user : User} (member : user ∈ db.users) :
    db.users.filter (sameEmail lower ·.email user.email) = [user] := by
  have emails := indexed.emails
  generalize db.users = users at member emails
  induction users with
  | nil => cases member
  | cons head tail inductionHypothesis =>
      obtain ⟨apart, rest⟩ := List.pairwise_cons.mp emails
      rcases List.mem_cons.mp member with rfl | inTail
      · have others : tail.filter (sameEmail lower ·.email user.email) = [] := by
          rw [List.filter_eq_nil_iff]
          intro other otherMember same
          exact nomatch (sameEmail_comm same).symm.trans (apart other otherMember)
        rw [List.filter_cons_of_pos (by simp [sameEmail]), others]
      · rw [List.filter_cons_of_neg (by simp [apart user inTail])]
        exact inductionHypothesis inTail rest

theorem find_email (indexed : db.Indexed lower) {user : User} (member : user ∈ db.users) :
    Action.singleOrDefault (db.users.filter (sameEmail lower ·.email user.email)) =
      .ok (some user) := by
  rw [indexed.filter_email member]
  rfl

theorem single_user (indexed : db.Indexed lower) {user : User} (member : user ∈ db.users) :
    Action.single (db.users.filter (·.id = user.id)) = .ok user := by
  rw [indexed.users.filter_key member]
  rfl

/-- A live token is hit by its consumer. -/
theorem consumable_live {token : VerificationToken} {type : VerificationTokenType}
    {userId : Guid} {now : Instant} (member : token ∈ db.verificationTokens)
    (live : token.Live type userId now) :
    db.verificationTokens.countP
      (VerificationTokens.consumable token.tokenHash type now fun _ => true) ≠ 0 := by
  obtain ⟨rfl, -, unconsumed, unexpired⟩ := live
  refine Nat.pos_iff_ne_zero.mp (List.countP_pos_iff.mpr ⟨token, member, ?_⟩)
  simp [VerificationTokens.consumable, unconsumed, unexpired]

/-- The hash of a token finds its user, also once the token is consumed. -/
theorem single_owner (indexed : db.Indexed lower) {token : VerificationToken}
    {pred : VerificationToken → Bool} {now : Instant} (member : token ∈ db.verificationTokens) :
    Action.single
      (((Table.updateWhere pred ({ · with consumedAt := some now }) db.verificationTokens).filter
      (·.tokenHash = token.tokenHash)).map (·.userId)) = .ok token.userId := by
  let mark (token : VerificationToken) : VerificationToken := { token with consumedAt := some now }
  have keyed : Table.Keyed VerificationToken.tokenHash
      (Table.updateWhere pred mark db.verificationTokens) := indexed.tokens.updateWhere fun _ => rfl
  have found : ∃ row ∈ Table.updateWhere pred mark db.verificationTokens,
      row.tokenHash = token.tokenHash ∧ row.userId = token.userId := by
    cases hit : pred token with
    | false => exact ⟨token, Table.mem_updateWhere_of_not member hit, rfl, rfl⟩
    | true => exact ⟨mark token, Table.mem_updateWhere_of_hit member hit, rfl, rfl⟩
  obtain ⟨row, rowMember, sameHash, sameUser⟩ := found
  rw [← sameHash, keyed.filter_key rowMember, ← sameUser]
  rfl

end Db.Indexed

/-- A saved user is found as it was saved. -/
theorem Db.updateUser_finds {db after : Db} {now : Instant} {original current : User}
    (saved : db.updateUser now original current = .ok after) (member : original ∈ db.users)
    (sameId : current.id = original.id) :
    ∃ user ∈ after.users, user.id = current.id ∧ user.email = current.email ∧
      user.emailVerified = current.emailVerified ∧ user.passwordHash = current.passwordHash := by
  obtain ⟨-, rfl⟩ := Db.updateUser_eq_ok.mp saved
  by_cases same : current = original
  · subst same
    exact ⟨current, Table.mem_updateWhere_of_not member (by simp), rfl, rfl, rfl, rfl⟩
  · refine ⟨original.merge current now original, Table.mem_updateWhere_of_hit member
      (by simp [same]), ?_⟩
    simp [User.merge, sameId]

theorem Db.updateUser_stored {db : Db} {now : Instant} {original current : User}
    {exception : AppException} (member : original ∈ db.users) :
    db.updateUser now original current ≠ .error exception :=
  fun refused => nomatch
    (Db.updateUser_eq_ok.mpr ⟨.inr ⟨original, member, rfl⟩, rfl⟩).symm.trans refused

/-- Steps that leave the users alone. -/
def SameUserRows (before after : State) : Prop := after.store.db.users = before.store.db.users

instance : Frames .standing SameUserRows Db.users fun _ => False :=
  @Frames.alone Standing (fun before after : Db => after.users = before.users) _ Db.users
    (fun early late => late.trans early) (fun _ _ => rfl) fun _ _ same => same

/-- A live token of this type was mailed to the account. -/
def LiveMailed (services : Services) (account : User) (type : VerificationTokenType)
    (state : State) :
    Prop :=
  ∃ token ∈ state.store.db.verificationTokens, token.Live type account.id state.last.now ∧
    ∃ plaintext, token.tokenHash = services.tokenGenerator.hash plaintext ∧
      Mailed account.email plaintext state

/-- No token drawn from here on is stored already, by its id or its hash. -/
def FreshFrom (services : Services) (number : ℕ) (tokens : List VerificationToken) : Prop :=
  ∀ later ≥ number, ∀ token ∈ tokens, token.id ≠ later ∧
    token.tokenHash ≠ services.tokenGenerator.hash (services.tokenGenerator.newOpaqueToken later)

/-! ### The consumption of a mailed token -/

/-- A live token is consumed, and its hash still finds its user. -/
theorem VerificationTokens.consume_standing {β : Type} {type : VerificationTokenType}
    {consumer : TokenConsumer} {token : VerificationToken} {userId : Guid} {call : ℕ}
    {start : State}
    {rest : PUnit → Action β} {post : Except AppException β → State → Prop}
    {lower : String → String} (indexed : start.store.db.Indexed lower)
    (member : token ∈ start.store.db.verificationTokens)
    (live : token.Live type userId start.last.now)
    (next : ∀ marked, marked.last.now = start.last.now →
      marked.store.db.users = start.store.db.users →
      Action.single ((marked.store.db.verificationTokens.filter (·.tokenHash = token.tokenHash)).map
        (·.userId)) = .ok (some userId) → (rest ()).wp .standing call post marked) :
    (consume token.tokenHash type start.last.now (fun _ => true) consumer >>= fun consumed =>
      if consumed = 0 then (throw .invalidToken : Action PUnit) >>= rest else rest ()).wp
        .standing call
        post start := by
  rw [Program.wp_bind]
  rintro current rfl input still
  refine ⟨trivial, ?_⟩
  change Program.andThen _ call _ _ (.ok _) _
  rw [Program.andThen_ok, if_neg (Db.Indexed.consumable_live member live)]
  refine next _ still rfl ?_
  rw [← live.2.1]
  exact indexed.single_owner member

/-! ### The request of a reset -/

namespace PasswordResetService

/-- A request mails a live token, or it drew one that was stored already. -/
theorem requestAsync_standing {services : Services} {account : User} {http : HttpContext} {call : ℕ}
    {start : State} (indexed : start.store.db.Indexed services.lower)
    (member : account ∈ start.store.db.users) (trimmed : trim account.email = account.email) :
    (requestAsync services http account.email).wp .standing call
      (fun _ after => after.last.now = start.last.now ∧
        after.store.db.users = start.store.db.users ∧
          (LiveMailed services account .passwordReset after ∨
            after.store.db.verificationTokens = start.store.db.verificationTokens ∧
              start.store.supply < after.store.supply ∧
                ¬ FreshFrom services start.store.supply start.store.db.verificationTokens))
                  start := by
  rw [requestAsync, Program.wp_bind]
  refine alone_queryOrThrow ?_
  intro reading still
  rw [trimmed, indexed.find_email member, Program.andThen_ok, Program.wp_bind,
    VerificationTokens.store, Program.wp_bind]
  refine alone_draw ?_
  intro drawing drawingStill
  rw [Program.andThen_ok, Program.wp_bind]
  refine alone_utcNow ?_
  intro issuing issuingStill
  rw [Program.andThen_ok, Program.wp_bind]
  refine alone_draw ?_
  intro naming namingStill
  rw [Program.andThen_ok, Program.wp_bind]
  refine alone_saveChanges ?saved ?refused
  case refused =>
    intro saving exception refused savingStill
    have clock : saving.now = start.last.now :=
      savingStill.trans (namingStill.trans (issuingStill.trans (drawingStill.trans still)))
    refine ⟨clock, rfl, .inr ⟨rfl, ?_, ?_⟩⟩
    · dsimp only [Shared.observed_store, Shared.drew_store]
      omega
    · intro fresh
      refine Db.insertVerificationToken_error refused ⟨?_, ?_, ?_⟩
      · exact fun other otherMember => (fresh _ (Nat.le_succ _) other otherMember).1
      · exact fun other otherMember => (fresh _ (Nat.le_refl _) other otherMember).2
      · exact Db.hasUser_of_exists ⟨account, member, rfl⟩
  case saved =>
    intro saving db saved savingStill
    obtain ⟨-, rfl⟩ := Db.insertVerificationToken_eq_ok.mp saved
    have clock : saving.now = start.last.now :=
      savingStill.trans (namingStill.trans (issuingStill.trans (drawingStill.trans still)))
    have issuedAt : issuing.now = start.last.now := issuingStill.trans (drawingStill.trans still)
    rw [Program.andThen_ok, Program.wp_pure, Program.andThen_ok, Program.wp_bind]
    refine AuditLogger.wp_logAsync (Calm.standing call) ?_
    intro later logged
    rw [Program.andThen_ok]
    rintro current rfl queueing queueingStill
    let token : VerificationToken :=
      { id := start.store.supply + 1
        userId := some account.id
        type := .passwordReset
        tokenHash := services.tokenGenerator.hash
          (services.tokenGenerator.newOpaqueToken start.store.supply)
        expiresAt := issuing.now + tokenLifetime
        createdAt := saving.now
        updatedAt := saving.now }
    have now : queueing.now = start.last.now := queueingStill.trans (logged.clock.trans clock)
    have stored : token ∈ later.store.db.verificationTokens := by
      rw [logged.tokens]
      exact List.mem_append_right _ (List.mem_singleton_self _)
    have live : token.Live .passwordReset account.id queueing.now := by
      refine ⟨rfl, rfl, rfl, ?_⟩
      change queueing.now < issuing.now + tokenLifetime
      rw [now, issuedAt]
      exact Int.lt_add_of_pos_right _ (by decide)
    refine ⟨trivial, now, logged.users, .inl ⟨token, stored, live, _, rfl, ?_⟩⟩
    exact ⟨_, List.mem_append_right _ (List.mem_singleton_self _), rfl, List.mem_singleton_self _⟩

/-- The confirmation with a live token sets the password. -/
theorem confirmAsync_standing {services : Services} {account : User} {http : HttpContext}
    {plaintext newPassword : String} {token : VerificationToken} {call : ℕ} {start : State}
    (indexed : start.store.db.Indexed services.lower) (stored : account ∈ start.store.db.users)
    (member : token ∈ start.store.db.verificationTokens)
    (live : token.Live .passwordReset account.id start.last.now)
    (hash : token.tokenHash = services.tokenGenerator.hash plaintext) :
    (confirmAsync services http plaintext newPassword).wp .standing call
      (fun _ after => ∃ user ∈ after.store.db.users, user.id = account.id ∧
        user.email = account.email ∧ user.emailVerified = account.emailVerified ∧
          ∃ salt, user.passwordHash = some (services.passwordHasher.hash newPassword salt))
            start := by
  rw [confirmAsync, Program.wp_bind]
  refine alone_utcNow ?_
  intro reading still
  rw [← still] at live
  rw [Program.andThen_ok, ← hash]
  refine @VerificationTokens.consume_standing _ _ _ _ _ _ (start.observed reading) _ _ _ indexed
    member live ?_
  intro marked _ sameUsers owner
  rw [Program.wp_bind, VerificationTokens.userOf]
  refine alone_queryOrThrow ?_
  intro second _
  rw [owner, Program.andThen_ok, Program.wp_bind, Action.wp_orThrow]
  dsimp only
  rw [Program.andThen_ok, Program.wp_bind]
  refine alone_queryOrThrow ?_
  intro third _
  rw [Shared.observed_store, sameUsers, Shared.observed_store, indexed.single_user stored,
    Program.andThen_ok, Program.wp_bind]
  refine alone_draw ?_
  intro salting _
  rw [Program.andThen_ok, Program.wp_bind]
  refine alone_draw ?_
  intro stamping _
  rw [Program.andThen_ok, Program.wp_bind]
  refine alone_saveChanges ?saved ?refused
  case refused =>
    intro saving exception refused _
    exact absurd refused (Db.updateUser_stored (sameUsers ▸ stored))
  case saved =>
    intro saving db saved _
    rw [Program.andThen_ok]
    have silent : ∀ current : User, Keeps .standing SameUserRows (do
        let revoked ← SessionService.revokeAllForUserAsync account.id none .passwordReset
        AuditLogger.logAsync http .passwordResetCompleted (some account.id)
        SecurityNotificationService.notifyAsync (some current) account.id "Password reset completed"
        if 0 < revoked then
          AuditLogger.logAsync http .sessionRevoked (some account.id)) :=
      fun _ => .bind (SessionService.revokeAllForUserAsync_frame (fun _ _ => rfl) _ _ _) fun _ =>
        .bind (.logAsync http _ _) fun _ => .bind (.notifyAsync _ _ _) fun _ =>
          .ite (.logAsync http _ _) (.pure _)
    refine Program.wp_mono (silent _ call _) ?_
    intro _ after same
    obtain ⟨user, userMember, sameId, sameEmail, sameVerified, password⟩ :=
      Db.updateUser_finds saved (sameUsers ▸ stored) rfl
    refine ⟨user, ?_, sameId, sameEmail, sameVerified, _, password⟩
    rw [same]
    exact userMember

end PasswordResetService

/-- The confirmation with a live token verifies the address. -/
theorem EmailVerificationService.confirmAsync_standing {services : Services} {account : User}
    {http : HttpContext} {plaintext : String} {token : VerificationToken} {call : ℕ} {start : State}
    (indexed : start.store.db.Indexed services.lower) (stored : account ∈ start.store.db.users)
    (member : token ∈ start.store.db.verificationTokens)
    (live : token.Live .emailVerification account.id start.last.now)
    (hash : token.tokenHash = services.tokenGenerator.hash plaintext) :
    (confirmAsync services http plaintext).wp .standing call
      (fun _ after => ∃ user ∈ after.store.db.users, user.id = account.id ∧
        user.email = account.email ∧ user.emailVerified = true) start := by
  rw [confirmAsync, Program.wp_bind]
  refine alone_utcNow ?_
  intro reading still
  rw [← still] at live
  rw [Program.andThen_ok, ← hash]
  refine @VerificationTokens.consume_standing _ _ _ _ _ _ (start.observed reading) _ _ _ indexed
    member live ?_
  intro marked _ sameUsers owner
  rw [verifyOwnerAsync, Program.wp_bind, VerificationTokens.userOf]
  refine alone_queryOrThrow ?_
  intro second _
  rw [owner, Program.andThen_ok, Program.wp_bind]
  refine alone_queryOrThrow ?_
  intro third _
  have found : Action.single (marked.store.db.users.filter fun candidate =>
      some candidate.id = some account.id) = .ok account := by
    rw [sameUsers]
    simpa using indexed.single_user stored
  rw [Shared.observed_store, found, Program.andThen_ok, Program.wp_bind]
  refine alone_saveChanges ?saved ?refused
  case refused =>
    intro saving exception refused _
    exact absurd refused (Db.updateUser_stored (sameUsers ▸ stored))
  case saved =>
    intro saving db saved _
    rw [Program.andThen_ok]
    have silent : Keeps .standing SameUserRows (do
        AuditLogger.logAsync http .emailVerified (some account.id)
        return ({ email := account.email, verifiedAt := reading.now } : EmailVerifiedResponse)) :=
      .bind (.logAsync http _ _) fun _ => .pure _
    refine Program.wp_mono (silent call _) ?_
    intro _ after same
    obtain ⟨user, userMember, sameId, sameEmail, verified, -⟩ :=
      Db.updateUser_finds saved (sameUsers ▸ stored) rfl
    refine ⟨user, ?_, sameId, sameEmail, verified⟩
    rw [same]
    exact userMember

/-! ### Recoveries -/

theorem ServiceOperation.unambiguous_after {services : Services} {fido2 : Fido2}
    {op : ServiceOperation}
    {call : ℕ} {before after : State} {outcome : Except AppException Unit}
    (completes : (op.program services fido2).Completes Standing call before outcome after)
    (holds : Unambiguous services.lower before) : Unambiguous services.lower after :=
  completes.post_of_wp
    (Program.wp_alone StaysUnambiguous.refl (fun _ _ _ _ => trivial) (op.unambiguous call before))
      holds

theorem FreshFrom.mono {services : Services} {number later : ℕ} {tokens : List VerificationToken}
    (fresh : FreshFrom services number tokens) (le : number ≤ later) :
    FreshFrom services later tokens :=
  fun drawn ge => fresh drawn (Nat.le_trans le ge)

/-- Finitely many tokens are stored. -/
theorem exists_freshFrom {services : Services} (differ : TokensDiffer services)
    (tokens : List VerificationToken) : ∃ number, FreshFrom services number tokens := by
  let hashOf (number : ℕ) :=
    services.tokenGenerator.hash (services.tokenGenerator.newOpaqueToken number)
  induction tokens with
  | nil => exact ⟨0, fun _ _ _ member => nomatch member⟩
  | cons head tail inductionHypothesis =>
      obtain ⟨number, fresh⟩ := inductionHypothesis
      have hashes : ∃ bound, ∀ later ≥ bound, head.tokenHash ≠ hashOf later := by
        by_cases drawn : ∃ earlier, head.tokenHash = hashOf earlier
        · obtain ⟨earlier, equal⟩ := drawn
          refine ⟨earlier + 1, fun later ge same => ?_⟩
          have := differ _ _ (equal.symm.trans same)
          omega
        · exact ⟨0, fun later _ same => drawn ⟨later, same⟩⟩
      obtain ⟨bound, apart⟩ := hashes
      refine ⟨max number (max bound (head.id + 1)), fun later ge token member => ?_⟩
      rcases List.mem_cons.mp member with rfl | inTail
      · refine ⟨fun same => ?_, apart later (by omega)⟩
        have bounded : token.id + 1 ≤ later :=
          Nat.le_trans (Nat.le_max_right _ _) (Nat.le_trans (Nat.le_max_right _ _) ge)
        exact absurd (same ▸ bounded) (Nat.not_succ_le_self _)
      · exact fresh later (by omega) token inTail

section Recoveries

variable {services : Services} {fido2 : Fido2} {account row : User} {start current : State}
variable {history : List OperationRecord}

theorem Recovery.request (trimmed : trim row.email = row.email)
    (recovery : Recovery services fido2 account start history current)
    (unambiguous : Unambiguous services.lower current) (stored : row ∈ current.store.db.users) :
    ∃ longer after, Recovery services fido2 account start longer after ∧
      Unambiguous services.lower after ∧ row ∈ after.store.db.users ∧
        (LiveMailed services row .passwordReset after ∨
          after.store.db.verificationTokens = current.store.db.verificationTokens ∧
            current.store.supply < after.store.supply ∧
              ¬ FreshFrom services current.store.supply current.store.db.verificationTokens) := by
  obtain ⟨outcome, after, completes, longer⟩ :=
    recovery.next (.requestReset {} row.email) rfl fun _ member => nomatch member
  obtain ⟨-, sameUsers, requested⟩ := completes.post_of_wp
    (PasswordResetService.requestAsync_standing unambiguous.indexed stored trimmed)
  exact ⟨_, _, longer, ServiceOperation.unambiguous_after completes unambiguous, sameUsers ▸ stored,
    requested⟩

/-- Requests are repeated until one has drawn a token that is not stored yet. -/
theorem Recovery.requests (trimmed : trim row.email = row.email) (missing : ℕ)
    (recovery : Recovery services fido2 account start history current)
    (unambiguous : Unambiguous services.lower current) (stored : row ∈ current.store.db.users)
    (fresh : FreshFrom services
      (current.store.supply + missing) current.store.db.verificationTokens) :
    ∃ longer final, Recovery services fido2 account start longer final ∧
      Unambiguous services.lower final ∧ row ∈ final.store.db.users ∧
        LiveMailed services row .passwordReset final := by
  induction missing generalizing history current with
  | zero =>
      obtain ⟨longer, after, requested, still, kept, mailed | ⟨-, -, taken⟩⟩ :=
        recovery.request trimmed unambiguous stored
      · exact ⟨longer, after, requested, still, kept, mailed⟩
      · exact absurd fresh taken
  | succ missing inductionHypothesis =>
      obtain ⟨longer, after, requested, still, kept, mailed | ⟨sameTokens, drew, -⟩⟩ :=
        recovery.request trimmed unambiguous stored
      · exact ⟨longer, after, requested, still, kept, mailed⟩
      · refine inductionHypothesis requested still kept ?_
        rw [sameTokens]
        exact fresh.mono (by omega)

/-- A verified account gets a new password by mail, and the login accepts it. -/
theorem Recovery.recoverable (differ : TokensDiffer services)
    (verifies : ∀ password salt,
      services.passwordHasher.verify password (services.passwordHasher.hash password salt) = true)
    (trimmed : trim account.email = account.email) (sameId : row.id = account.id)
    (sameEmail : row.email = account.email)
    (recovery : Recovery services fido2 account start history current)
    (unambiguous : Unambiguous services.lower current) (stored : row ∈ current.store.db.users)
    (verified : row.emailVerified = true) : Recoverable services fido2 account start := by
  obtain ⟨number, fresh⟩ := exists_freshFrom differ current.store.db.verificationTokens
  obtain ⟨longer, requested, requests, indexed, stillStored, token, member, live, plaintext,
      hash, mailed⟩ :=
    recovery.requests (by rw [sameEmail, trimmed]) number unambiguous stored
      (fresh.mono (Nat.le_add_left _ _))
  obtain ⟨outcome, after, completes, complete⟩ :=
    requests.next (.confirmReset {} plaintext "password") rfl fun presented member => by
      rw [List.mem_singleton.mp member, ← sameEmail]
      exact mailed
  obtain ⟨user, userMember, userId, userEmail, userVerified, salt, password⟩ := completes.post_of_wp
    (PasswordResetService.confirmAsync_standing indexed.indexed stillStored member live hash)
  have indexes := (ServiceOperation.unambiguous_after completes indexed).indexed
  refine ⟨_, after, "password", complete, ?_⟩
  have found : LoginService.withEmail services (trim account.email) after.store.db =
      [(user, after.store.db.totpCredentials.find? (·.userId = user.id))] := by
    rw [trimmed, ← sameEmail, ← userEmail, LoginService.withEmail, indexes.filter_email userMember]
    rfl
  simp [LoginService.passesChecks, found, Action.singleOrDefault, userId, sameId,
    password, verifies,
    userVerified, verified]

end Recoveries

/-! ### Which accounts can be recovered -/

theorem recoverable_of_verifiable {services : Services} {fido2 : Fido2} {account : User}
    {start : State}
    (differ : TokensDiffer services)
    (verifies : ∀ password salt,
      services.passwordHasher.verify password (services.passwordHasher.hash password salt) = true)
    (unambiguous : Unambiguous services.lower start) (stored : account ∈ start.store.db.users)
    (trimmed : trim account.email = account.email)
    (verifiable : account.emailVerified = true ∨
      LiveMailed services account .emailVerification start) :
    Recoverable services fido2 account start := by
  have begins : Recovery services fido2 account start [] start :=
    ⟨.start, (fun _ member => nomatch member), (fun _ member => nomatch member)⟩
  rcases verifiable with verified | ⟨token, member, live, plaintext, hash, mailed⟩
  · exact begins.recoverable differ verifies trimmed rfl rfl unambiguous stored verified
  · obtain ⟨outcome, after, completes, confirmed⟩ :=
      begins.next (.confirmEmail {} plaintext) rfl fun presented isToken => by
        rw [List.mem_singleton.mp isToken]
        exact mailed
    have confirms :
        (ServiceOperation.program services fido2 (.confirmEmail {} plaintext)).wp .standing 0
        (fun _ after => ∃ user ∈ after.store.db.users, user.id = account.id ∧
          user.email = account.email ∧ user.emailVerified = true) start := by
      refine Program.wp_bind_of
        (EmailVerificationService.confirmAsync_standing unambiguous.indexed stored
        member live hash) ?_ ?_
      · intro _ _ verified
        exact verified
      · intro _ _ verified
        exact verified
    obtain ⟨user, userMember, sameId, sameEmail, verified⟩ := completes.post_of_wp confirms
    exact confirmed.recoverable differ verifies trimmed sameId sameEmail
      (ServiceOperation.unambiguous_after completes unambiguous) userMember verified

/-- Without a live token, no anonymous operation makes the login of an unverified account pass. -/
theorem Unverifiable.not_recoverable {services : Services} {fido2 : Fido2} {account : User}
    {start : State} (stuck : Unverifiable account.id start) :
    ¬ Recoverable services fido2 account start := by
  rintro ⟨history, final, password, recovery, passes⟩
  have stays : StaysUnverifiable start final := by
    refine recovery.runs.relates_of_records StaysUnverifiable.refl
      (fun _ _ _ early late => early.trans late) ?_
    intro record member call completes
    exact completes.post_of_wp
      (ServiceOperation.staysUnverifiable (recovery.anonymous record member) call _)
  have unverified := (stays.stays _ stuck).unverified
  unfold LoginService.passesChecks at passes
  split at passes
  case h_2 => cases passes
  case h_1 user credential found =>
    simp only [Bool.and_eq_true, decide_eq_true_eq] at passes
    obtain ⟨⟨sameId, -⟩, verified⟩ := passes
    obtain ⟨row, member, equal⟩ := List.mem_map.mp (Action.mem_of_singleOrDefault_rows found)
    cases equal
    exact nomatch verified.symm.trans (unverified user (List.mem_filter.mp member).1 sameId)

end AuthStartpack
