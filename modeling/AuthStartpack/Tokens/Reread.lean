import AuthStartpack.Program.Moments
import AuthStartpack.Services.UserFrames

/-!
Owns what becomes of a consumed verification token under the cleanup. Consuming
is one committed statement, and the user of the token is read by the next one, so
that the effect of a consumption depends on the row surviving in between.
-/

namespace AuthStartpack

/-- The operations that read a token again once they have consumed it, and the cleanup. -/
inductive TokenOperation
  | confirmReset (http : HttpContext) (token newPassword : String)
  | confirmEmail (http : HttpContext) (token : String)
  | consumeTicket (ticket : String)
  | cleanup

inductive TokenResult
  | passwordReset
  | emailVerified (response : EmailVerifiedResponse)
  | ticketConsumed (userId : Option Guid)
  | cleaned
deriving DecidableEq, Repr

def TokenOperation.program (services : Services) : TokenOperation → Action TokenResult
  | confirmReset http token newPassword => do
      PasswordResetService.confirmAsync services http token newPassword
      return .passwordReset
  | confirmEmail http token => do
      let response ← EmailVerificationService.confirmAsync services http token
      return .emailVerified response
  | consumeTicket ticket => do
      let userId ← MfaTicketService.consumeAsync services ticket
      return .ticketConsumed userId
  | cleanup => do
      ExpiredAuthArtifactCleanupService.cleanupOnceAsync services
      return .cleaned

abbrev TokenPool := Pool Input World Event AppException TokenResult

/-- Operations that have not begun. -/
def operatingTokens (services : Services) (operations : List TokenOperation) (start : State) :
    TokenPool where
  shared := start
  calls := operations.map (·.program services)

/-! ### Steps that spare what is consumed -/

def Db.hasToken (hash : String) (db : Db) : Bool := db.verificationTokens.any (·.tokenHash = hash)

/-- The hash of the token that was consumed. -/
def Event.consumedHash? : Event → Option String
  | .verificationTokenConsumed token _ => some token.tokenHash
  | _ => none

/-- No step deletes a token that another call consumed with its last step. `consuming` lists these
calls with the hashes. -/
def SparesConsumed (pool : TokenPool) (consuming : List (ℕ × String)) : List (ℕ × Input) → Prop
  | [] => True
  | (call, input) :: rest =>
      (∀ pending ∈ consuming, pending.1 ≠ call → pool.shared.store.db.hasToken pending.2 = true →
        (pool.step call input).shared.store.db.hasToken pending.2 = true) ∧
      SparesConsumed (pool.step call input)
        (consuming.filter (·.1 ≠ call) ++
          ((pool.reports call input).filterMap Event.consumedHash?).map fun hash => (call, hash))
            rest

instance decidableSparesConsumed (pool : TokenPool) (consuming : List (ℕ × String)) :
    (schedule : List (ℕ × Input)) → Decidable (SparesConsumed pool consuming schedule)
  | [] => .isTrue trivial
  | (call, input) :: rest =>
      have := decidableSparesConsumed (pool.step call input)
        (consuming.filter (·.1 ≠ call) ++
          ((pool.reports call input).filterMap Event.consumedHash?).map fun hash => (call, hash))
            rest
      inferInstanceAs (Decidable (_ ∧ _))

theorem SparesConsumed.drop {pool : TokenPool} {consuming : List (ℕ × String)}
    {before rest : List (ℕ × Input)} (spares : SparesConsumed pool consuming (before ++ rest)) :
    ∃ later, SparesConsumed (pool.run before) later rest := by
  induction before generalizing pool consuming with
  | nil => exact ⟨consuming, spares⟩
  | cons head tail inductionHypothesis => exact inductionHypothesis spares.2

/-- Until the call takes its next step, the token stays. -/
theorem SparesConsumed.stays {pool : TokenPool} {consuming : List (ℕ × String)}
    {middle rest : List (ℕ × Input)} (spares : SparesConsumed pool consuming (middle ++ rest))
    {call : ℕ} {hash : String} (pending : (call, hash) ∈ consuming)
    (absent : ∀ step ∈ middle, step.1 ≠ call) (has : pool.shared.store.db.hasToken hash = true) :
    (pool.run middle).shared.store.db.hasToken hash = true := by
  induction middle generalizing pool consuming with
  | nil => exact has
  | cons head tail inductionHypothesis =>
      obtain ⟨other, input⟩ := head
      have different : call ≠ other := (absent (other, input) List.mem_cons_self).symm
      refine inductionHypothesis spares.2 ?_ ?_ (spares.1 _ pending different has)
      · refine List.mem_append_left _ (List.mem_filter.mpr ⟨pending, ?_⟩)
        simpa using different
      · exact fun step member => absent step (List.mem_cons_of_mem _ member)

/-! ### What all steps keep -/

/-- What the consumers read of a token. -/
def VerificationToken.issued (token : VerificationToken) :
    String × VerificationTokenType × Option Guid :=
  (token.tokenHash, token.type, token.userId)

/-- Users stay, and tokens are only deleted. -/
structure UsersStay (before after : State) : Prop where
  users : after.store.db.users.map User.id = before.store.db.users.map User.id
  tokens : List.Sublist (after.store.db.verificationTokens.map VerificationToken.issued)
    (before.store.db.verificationTokens.map VerificationToken.issued)

/-- Tokens are told apart by their hash, and those of the three types have a user. -/
structure Db.Attributed (db : Db) : Prop where
  users : Table.Keyed User.id db.users
  tokens : Table.Keyed VerificationToken.tokenHash db.verificationTokens
  owners : ∀ token ∈ db.verificationTokens,
    token.type ∈ [.passwordReset, .emailVerification, .mfaChallenge] →
      ∃ user ∈ db.users, token.userId = some user.id

namespace UsersStay

theorem refl (state : State) : UsersStay state state := ⟨rfl, .refl _⟩

theorem trans (first second third : State) (early : UsersStay first second)
    (late : UsersStay second third) : UsersStay first third :=
  ⟨late.users.trans early.users, late.tokens.trans early.tokens⟩

variable {before after : State}

theorem of_same (users : after.store.db.users.map User.id = before.store.db.users.map User.id)
    (tokens : after.store.db.verificationTokens.map VerificationToken.issued =
      before.store.db.verificationTokens.map VerificationToken.issued) : UsersStay before after :=
  ⟨users, tokens ▸ .refl _⟩

/-- A later token is one of the earlier ones. -/
theorem token (stays : UsersStay before after) {token : VerificationToken}
    (member : token ∈ after.store.db.verificationTokens) :
    ∃ earlier ∈ before.store.db.verificationTokens, earlier.issued = token.issued :=
  List.mem_map.mp (stays.tokens.subset (List.mem_map_of_mem member))

theorem user (stays : UsersStay before after) {userId : Guid}
    (stored : ∃ user ∈ before.store.db.users, user.id = userId) :
    ∃ user ∈ after.store.db.users, user.id = userId := by
  obtain ⟨user, member, rfl⟩ := stored
  have kept : user.id ∈ after.store.db.users.map User.id := by
    rw [stays.users]
    exact List.mem_map_of_mem member
  exact List.mem_map.mp kept

theorem attributed (stays : UsersStay before after) (attributed : before.store.db.Attributed) :
    after.store.db.Attributed := by
  constructor
  case users =>
    unfold Table.Keyed
    rw [stays.users]
    exact attributed.users
  case tokens =>
    have hashes := stays.tokens.map Prod.fst
    rw [List.map_map, List.map_map] at hashes
    exact hashes.nodup attributed.tokens
  case owners =>
    intro token member type
    obtain ⟨earlier, earlierMember, same⟩ := stays.token member
    simp only [VerificationToken.issued, Prod.mk.injEq] at same
    obtain ⟨user, userMember, owner⟩ := attributed.owners earlier earlierMember (same.2.1 ▸ type)
    obtain ⟨later, laterMember, sameId⟩ := stays.user ⟨user, userMember, rfl⟩
    refine ⟨later, laterMember, ?_⟩
    rw [← same.2.2, owner, sameId]

/-- A step among others, from what it makes of the tables. -/
theorem written {start current : State} {call : ℕ} {input : Input} {world : World}
    {events : List Event} (relied : UsersStay start current)
    (users : world.db.users.map User.id = current.store.db.users.map User.id)
    (tokens : List.Sublist (world.db.verificationTokens.map VerificationToken.issued)
      (current.store.db.verificationTokens.map VerificationToken.issued)) :
    UsersStay current (current.advance call input (world, events)) ∧
      UsersStay start (current.advance call input (world, events)) :=
  have stays : UsersStay current (current.advance call input (world, events)) := ⟨users, tokens⟩
  ⟨stays, relied.trans _ _ _ stays⟩

end UsersStay

/-- Any interleaving. -/
abbrev Law.staying : Law Input World Event := .concurrent (fun _ _ _ _ => True) UsersStay

instance : Frames .staying UsersStay (fun db : Db => (db.users, db.verificationTokens))
    fun _ => False := by
  refine Frames.concurrent UsersStay.refl UsersStay.trans (fun _ _ => rfl) ?_
  intro state call input world events _ same _ _
  simp only [Prod.mk.injEq] at same
  refine .of_same ?_ ?_
  · rw [Shared.advance_store, same.1]
  · rw [Shared.advance_store, same.2]

theorem updates_usersStay {original current : User} {events : Db → List Event} :
    Keeps .staying UsersStay
      (Action.saveChanges (fun now db => db.updateUser now original current) events) := by
  refine .saveChanges ?_
  intro call start now input db relied saved _
  obtain ⟨-, rfl⟩ := Db.updateUser_eq_ok.mp saved
  refine relied.1.written ?_ (.refl _)
  exact Table.map_updateWhere fun _ => rfl

theorem consumes_usersStay (type : VerificationTokenType) (consumer : TokenConsumer) :
    ConsumesKept .staying UsersStay type consumer := by
  intro hash now requires
  unfold VerificationTokens.consume
  refine .execute ?_
  intro call start current input relied _
  have kept : (Table.updateWhere (VerificationTokens.consumable hash type now requires)
      ({ · with consumedAt := some now }) current.store.db.verificationTokens).map
        VerificationToken.issued = current.store.db.verificationTokens.map
          VerificationToken.issued :=
    Table.map_updateWhere fun _ => rfl
  exact relied.1.written rfl (kept ▸ .refl _)

theorem cleans_usersStay (services : Services) (now : Instant) :
    Keeps .staying UsersStay
      (ExpiredAuthArtifactCleanupService.deleteVerificationTokensAsync services now) := by
  apply Keeps.bind (.query _)
  intro ids
  apply Keeps.ite
  · apply Keeps.bind
    · refine .execute ?_
      intro call start current input relied _
      refine relied.1.written rfl ?_
      exact List.filter_sublist.map _
    intro _
    exact .pure _
  · exact .pure _

theorem TokenOperation.usersStay {services : Services} (op : TokenOperation) :
    Keeps .staying UsersStay (op.program services) := by
  have consumes := consumes_usersStay
  cases op with
  | confirmReset http token newPassword =>
      refine .bind ?_ fun _ => .pure _
      exact PasswordResetService.confirmAsync_frame (fun _ _ _ => updates_usersStay)
        (fun _ _ => rfl)
        (consumes _ _) token newPassword
  | confirmEmail http token =>
      refine .bind ?_ fun _ => .pure _
      exact EmailVerificationService.confirmAsync_frame (consumes _ _) (fun _ => updates_usersStay)
        services http token
  | consumeTicket ticket =>
      refine .bind ?_ fun _ => .pure _
      apply Keeps.bind .utcNow
      intro now
      apply Keeps.bind (consumes _ _ _ _ _)
      intro _
      exact .ite (.pure _) (.queryOrThrow _)
  | cleanup =>
      refine .bind ?_ fun _ => .pure _
      exact ExpiredAuthArtifactCleanupService.cleanupOnceAsync_frame (fun _ _ => rfl)
        (fun _ _ => rfl)
        (fun _ _ => rfl) (cleans_usersStay services)

/-! ### One consumption -/

/-- What holds of a pool of these operations at every moment. -/
structure Healthy (pool : TokenPool) : Prop where
  attributed : pool.shared.store.db.Attributed
  verified : pool.Verified (fun _ _ _ _ => True) UsersStay fun _ _ _ => True

theorem Healthy.run {pool : TokenPool} (healthy : Healthy pool) (schedule : List (ℕ × Input)) :
    UsersStay pool.shared (pool.run schedule).shared ∧ Healthy (pool.run schedule) := by
  obtain ⟨stays, verified⟩ :=
    Pool.run_wp UsersStay.refl UsersStay.trans healthy.verified (Pool.admitted_any schedule)
  exact ⟨stays, stays.attributed healthy.attributed, verified⟩

/-- The end of a call whose program is known from here on. -/
theorem Healthy.ends {pool : TokenPool} (healthy : Healthy pool) {call : ℕ}
    {program : Action TokenResult} {goal : Except AppException TokenResult → State → Prop}
    {schedule : List (ℕ × Input)} {outcome : Except AppException TokenResult}
    (running : pool.calls[call]? = some program)
    (correct : program.wp .staying call goal pool.shared)
    (ended : (pool.run schedule).outcome? call = some outcome) :
    ∃ last, Shared.Untouched call last (pool.run schedule).shared ∧ goal outcome last := by
  obtain ⟨-, verified⟩ := Pool.run_wp UsersStay.refl UsersStay.trans
    (healthy.verified.update UsersStay.refl running correct) (Pool.admitted_any schedule)
  obtain ⟨last, -, untouched, reached⟩ := verified.outcome ended
  rw [Function.update_self] at reached
  exact ⟨last, untouched, reached⟩

/-- A call that consumes a token by its hash. -/
def Consumes (hash : String) (type : VerificationTokenType) (consumer : TokenConsumer)
    (branch : Instant → ℕ → Action TokenResult) : Action TokenResult := do
  let now ← Action.utcNow
  let consumed ← VerificationTokens.consume hash type now (fun _ => true) consumer
  branch now consumed

section Consumption

variable {pool : TokenPool} {call : ℕ} {hash : String} {type : VerificationTokenType}
variable {consumer : TokenConsumer}

theorem Db.Attributed.hits {db : Db} (attributed : db.Attributed) {now : Instant}
    {token : VerificationToken} (member : token ∈ db.verificationTokens)
    (hit : VerificationTokens.consumable hash type now (fun _ => true) token = true) :
    db.verificationTokens.filter (VerificationTokens.consumable hash type now fun _ => true) =
      [token] := by
  have only := attributed.tokens.filter_key member
  have found : token.tokenHash = hash := (VerificationTokens.consumable_iff.mp hit).1
  have narrowed : db.verificationTokens.filter
      (VerificationTokens.consumable hash type now fun _ => true) =
        (db.verificationTokens.filter (·.tokenHash = token.tokenHash)).filter
          (VerificationTokens.consumable hash type now fun _ => true) := by
    rw [List.filter_filter]
    refine List.filter_congr ?_
    intro other _
    simp only [VerificationTokens.consumable, found]
    by_cases same : other.tokenHash = hash <;> simp [same]
  rw [narrowed, only, List.filter_cons_of_pos hit, List.filter_nil]

/-- The step that consumes hits nothing and reports nothing, or it reports the one token it hits. -/
theorem Healthy.consume (healthy : Healthy pool) {now : Instant} {branch : ℕ → Action TokenResult}
    {input : Input}
    (shared : (pool.step call input).shared = pool.shared.advance call input
      ({ pool.shared.store with db := { pool.shared.store.db with
          verificationTokens := Table.updateWhere
            (VerificationTokens.consumable hash type now fun _ => true)
            ({ · with consumedAt := some now }) pool.shared.store.db.verificationTokens } },
        (pool.shared.store.db.verificationTokens.filter
          (VerificationTokens.consumable hash type now fun _ => true)).map
            (.verificationTokenConsumed · consumer)))
    (running : (pool.step call input).calls[call]? = some (branch
      (pool.shared.store.db.verificationTokens.countP
        (VerificationTokens.consumable hash type now fun _ => true)))) :
    ((pool.step call input).calls[call]? = some (branch 0) ∧
      (pool.step call input).shared.eventsOf call = pool.shared.eventsOf call) ∨
    ∃ token ∈ pool.shared.store.db.verificationTokens, token.tokenHash = hash ∧ token.type = type ∧
      (pool.step call input).shared.eventsOf call =
        pool.shared.eventsOf call ++ [.verificationTokenConsumed token consumer] ∧
      (pool.step call input).shared.store.db.hasToken hash = true ∧
      ∃ count, count ≠ 0 ∧ (pool.step call input).calls[call]? = some (branch count) := by
  have reported := congrArg (Shared.eventsOf call) shared
  rw [Shared.eventsOf_advance] at reported
  by_cases none : pool.shared.store.db.verificationTokens.countP
      (VerificationTokens.consumable hash type now fun _ => true) = 0
  · refine .inl ⟨none ▸ running, reported.trans ?_⟩
    rw [List.countP_eq_length_filter, List.length_eq_zero_iff] at none
    rw [none, List.map_nil, List.append_nil]
  · obtain ⟨token, member, hit⟩ := List.countP_pos_iff.mp (Nat.pos_of_ne_zero none)
    rw [healthy.attributed.hits member hit] at reported
    obtain ⟨sameHash, sameType, -⟩ := VerificationTokens.consumable_iff.mp hit
    refine .inr ⟨token, member, sameHash, sameType, reported, ?_, _, none, running⟩
    rw [shared]
    refine List.any_eq_true.mpr ⟨_, Table.mem_updateWhere_of_hit member hit, ?_⟩
    exact decide_eq_true sameHash

/-- The hash finds the user of the token as long as the token is stored. -/
theorem Db.Attributed.userOf {before after : State} (attributed : before.store.db.Attributed)
    (stays : UsersStay before after) {token : VerificationToken}
    (member : token ∈ before.store.db.verificationTokens)
    (has : after.store.db.hasToken token.tokenHash = true) :
    Action.single ((after.store.db.verificationTokens.filter (·.tokenHash = token.tokenHash)).map
      (·.userId)) = .ok token.userId := by
  obtain ⟨row, rowMember, same⟩ := List.any_eq_true.mp has
  have same : row.tokenHash = token.tokenHash := of_decide_eq_true same
  obtain ⟨earlier, earlierMember, equal⟩ := stays.token rowMember
  simp only [VerificationToken.issued, Prod.mk.injEq] at equal
  obtain rfl : earlier = token :=
    attributed.tokens.eq_of_key earlierMember member (equal.1.trans same)
  rw [← same, (stays.attributed attributed).tokens.filter_key rowMember, equal.2.2]
  rfl

/-- A call that consumes a token which is spared goes on with its user. -/
theorem Healthy.consume_reaches {branch : ℕ → Action TokenResult}
    {rest : Option Guid → Action TokenResult} {now : Instant}
    {outcome : Except AppException TokenResult}
    {schedule : List (ℕ × Input)} {consuming : List (ℕ × String)} (healthy : Healthy pool)
    (typed : type ∈ [.passwordReset, .emailVerification, .mfaChallenge])
    (silent : pool.shared.eventsOf call = []) (spares : SparesConsumed pool consuming schedule)
    (running : pool.calls[call]? =
      some (VerificationTokens.consume hash type now (fun _ => true) consumer >>= branch))
    (refuses : ∃ refused, branch 0 = .done refused)
    (rereads : ∀ count, count ≠ 0 → branch count = VerificationTokens.userOf hash >>= rest)
    (ended : (pool.run schedule).outcome? call = some outcome)
    (reported : (pool.run schedule).shared.eventsOf call ≠ []) :
    ∃ before after token userId, schedule = before ++ after ∧
      (pool.run before).shared.eventsOf call = [.verificationTokenConsumed token consumer] ∧
        token.userId = some userId ∧
          (∃ user ∈ (pool.run before).shared.store.db.users, user.id = userId) ∧
            (pool.run before).calls[call]? = some (rest (some userId)) := by
  -- The token is consumed, or else the call ends without a report.
  obtain ⟨early, input, later, rfl, absent, consumed, branched, reports⟩ :=
    Pool.next_atomically running ended
  have healthyEarly := (healthy.run early).2
  have silentEarly := ((Pool.run_untouched_of_absent absent).eventsOf).trans silent
  obtain ⟨consumingEarly, spares⟩ := spares.drop
  replace spares := spares.2
  rw [Pool.run_append] at ended reported
  change (((pool.run early).step call input).run later).outcome? call = _ at ended
  change (((pool.run early).step call input).run later).shared.eventsOf call ≠ [] at reported
  rcases healthyEarly.consume consumed branched with
    ⟨refused, still⟩ | ⟨token, member, rfl, sameType, events, has, count, positive, continued⟩
  · obtain ⟨result, done⟩ := refuses
    rw [done] at refused
    have nothing := (Pool.run_of_done refused later).2
    rw [still, silentEarly] at nothing
    exact absurd nothing reported
  -- Its row is spared until the call reads it.
  have pending : (call, token.tokenHash) ∈ consumingEarly.filter (·.1 ≠ call) ++
      (((pool.run early).reports call input).filterMap Event.consumedHash?).map
        fun hash => (call, hash) := by
    refine List.mem_append_right _
      (List.mem_map.mpr ⟨token.tokenHash, List.mem_filterMap.mpr ?_, rfl⟩)
    refine ⟨.verificationTokenConsumed token consumer, ?_, rfl⟩
    rw [reports]
    have own := congrArg (Shared.eventsOf call) consumed
    rw [Shared.eventsOf_advance, events] at own
    rw [← List.append_cancel_left own]
    exact List.mem_singleton_self _
  rw [rereads count positive] at continued
  obtain ⟨middle, rereading, after, rfl, absentMiddle, read, resumed, -⟩ :=
    Pool.next_atomically continued ended
  have kept := spares.stays pending absentMiddle has
  have stays : UsersStay (pool.run early).shared
      (((pool.run early).step call input).run middle).shared :=
    (healthyEarly.run ((call, input) :: middle)).1
  dsimp only at resumed
  rw [healthyEarly.attributed.userOf stays member kept] at resumed
  obtain ⟨user, userMember, owner⟩ := healthyEarly.attributed.owners token member (sameType ▸ typed)
  have healthyLater : Healthy (((pool.run early).step call input).run middle) :=
    (healthyEarly.run ((call, input) :: middle)).2
  have reach : pool.run (early ++ (call, input) :: (middle ++ [(call, rereading)])) =
      (((pool.run early).step call input).run middle).step call rereading := by
    rw [Pool.run_append]
    exact Pool.run_append _ middle [(call, rereading)]
  refine ⟨early ++ (call, input) :: (middle ++ [(call, rereading)]), after, token,
    user.id, by simp, ?_,
    owner, ?_, ?_⟩
  · rw [reach, read, Shared.eventsOf_advance, List.append_nil]
    rw [(Pool.run_untouched_of_absent absentMiddle).eventsOf, events, silentEarly]
    rfl
  · rw [reach]
    exact ((healthyLater.run [(call, rereading)]).1).user (stays.user ⟨user, userMember, rfl⟩)
  · rw [reach, resumed, owner]
    rfl

/-- The same from the beginning of the call. -/
theorem Healthy.reaches_rest {branch : Instant → ℕ → Action TokenResult}
    {rest : Instant → Option Guid → Action TokenResult} {outcome : Except AppException TokenResult}
    {schedule : List (ℕ × Input)} (healthy : Healthy pool)
    (typed : type ∈ [.passwordReset, .emailVerification, .mfaChallenge])
    (silent : pool.shared.eventsOf call = []) (spares : SparesConsumed pool [] schedule)
    (running : pool.calls[call]? = some (Consumes hash type consumer branch))
    (refuses : ∀ now, ∃ refused, branch now 0 = .done refused)
    (rereads : ∀ now count, count ≠ 0 →
      branch now count = VerificationTokens.userOf hash >>= rest now)
    (ended : (pool.run schedule).outcome? call = some outcome)
    (reported : (pool.run schedule).shared.eventsOf call ≠ []) :
    ∃ before after now token userId, schedule = before ++ after ∧
      (pool.run before).shared.eventsOf call = [.verificationTokenConsumed token consumer] ∧
        token.userId = some userId ∧
          (∃ user ∈ (pool.run before).shared.store.db.users, user.id = userId) ∧
            (pool.run before).calls[call]? = some (rest now (some userId)) := by
  obtain ⟨early, input, later, rfl, absent, read, reached, -⟩ := Pool.next_atomically running ended
  obtain ⟨consuming, spares⟩ := spares.drop
  rw [Pool.run_append] at ended reported
  have silentRead : ((pool.run early).step call input).shared.eventsOf call = [] := by
    rw [read, Shared.eventsOf_advance, List.append_nil]
    exact ((Pool.run_untouched_of_absent absent).eventsOf).trans silent
  have healthyRead : Healthy ((pool.run early).step call input) :=
    ((healthy.run early).2.run [(call, input)]).2
  obtain ⟨before, after, token, userId, rfl, events, owner, stored, resumed⟩ :=
    healthyRead.consume_reaches typed silentRead spares.2 reached (refuses input.now)
      (rereads input.now)
      ended reported
  refine ⟨early ++ (call, input) :: before, after, input.now, token,
    userId, by simp, ?_, owner, ?_, ?_⟩
  · rw [Pool.run_append]
    exact events
  · rw [Pool.run_append]
    exact stored
  · rw [Pool.run_append]
    exact resumed

end Consumption

/-! ### The effects -/

/-- Others keep users and tokens, and report nothing in the name of the call. -/
def Silent (call : ℕ) (before after : State) : Prop :=
  UsersStay before after ∧ after.eventsOf call = before.eventsOf call

theorem Calm.silent (call : ℕ) : Calm .staying call (Silent call) := by
  refine Calm.reporting call UsersStay.refl UsersStay.trans ?_
  intro state input world _ step
  obtain ⟨auditLogEntries, equal⟩ := step.db
  refine .of_same ?_ ?_
  · rw [Shared.advance_store, equal]
  · rw [Shared.advance_store, equal]

/-- A write that reports nothing. -/
theorem Silent.written {call : ℕ} {start current : State} {input : Input} {world : World}
    (silent : Silent call start current)
    (users : world.db.users.map User.id = current.store.db.users.map User.id)
    (tokens : world.db.verificationTokens = current.store.db.verificationTokens) :
    UsersStay current (current.advance call input (world, [])) ∧
      Silent call start (current.advance call input (world, [])) := by
  obtain ⟨step, reached⟩ := @UsersStay.written _ _ call input _ [] silent.1 users
    (tokens ▸ .refl _)
  refine ⟨step, reached, ?_⟩
  rw [Shared.eventsOf_advance, List.append_nil]
  exact silent.2

section Effects

variable {call : ℕ} {state : State}

/-- The save of a user that is still stored, as far as a column is concerned. -/
theorem wp_saveUser {α : Type} [DecidableEq α] {original current : User} {column : User → α}
    {post : Except AppException Unit → State → Prop}
    (merged : ∀ now stored, column (original.merge current now stored) =
      changed (column original) (column current) (column stored))
    (stored : ∃ user ∈ state.store.db.users, user.id = original.id)
    (rest : ∀ later, Silent call state later →
      (column original = column current ∨
        ∃ user ∈ later.store.db.users, user.id = original.id ∧ column user = column current) →
      post (.ok ()) later) :
    (Action.saveChanges fun now db => db.updateUser now original current).wp .staying call
      post state := by
  refine Action.wp_saveChanges (Calm.silent call) ?_ ?_
  · intro reached input db silent saved _
    obtain ⟨row, member, own⟩ := silent.1.user stored
    obtain ⟨-, rfl⟩ := Db.updateUser_eq_ok.mp saved
    refine And.imp_right (fun written => rest _ written ?_) (silent.written ?users ?tokens)
    case users => exact Table.map_updateWhere fun _ => rfl
    case tokens => rfl
    by_cases same : column original = column current
    · exact .inl same
    · have different : current ≠ original := fun equal => same (by rw [equal])
      refine .inr ⟨_, Table.mem_updateWhere_of_hit member (by simp [own, different]), own, ?_⟩
      rw [merged, changed, if_neg]
      exact fun equal => same equal.symm
  · intro reached later exception now silent _ refused
    obtain ⟨row, member, own⟩ := silent.1.user stored
    exact nomatch (Db.updateUser_eq_ok.mpr ⟨.inr ⟨row, member, own⟩, rfl⟩).symm.trans refused

end Effects

/-- At some moment of the run the user is stored so. -/
def Stored (pool : TokenPool) (schedule : List (ℕ × Input)) (userId : Guid) (so : User → Prop) :
    Prop :=
  ∃ before after, schedule = before ++ after ∧
    ∃ user ∈ (pool.run before).shared.store.db.users, user.id = userId ∧ so user

theorem Stored.later {pool : TokenPool} {before after : List (ℕ × Input)} {userId : Guid}
    {so : User → Prop} (stored : Stored (pool.run before) after userId so) :
    Stored pool (before ++ after) userId so := by
  obtain ⟨middle, rest, rfl, user⟩ := stored
  refine ⟨before ++ middle, rest, by rw [List.append_assoc], ?_⟩
  rw [Pool.run_append]
  exact user

/-- A call that reads the user, saves it and finishes. -/
theorem Healthy.stores {pool : TokenPool} {call : ℕ} {userId : Guid} {test : User → Bool}
    {so : User → Prop} {store : User → Action User} {tail : User → User → Action TokenResult}
    {good : TokenResult → Prop} {schedule : List (ℕ × Input)}
    {outcome : Except AppException TokenResult} (healthy : Healthy pool)
    (stored : ∃ user ∈ pool.shared.store.db.users, user.id = userId)
    (tests : ∀ user : User, test user = decide (user.id = userId))
    (running : pool.calls[call]? = some
      ((Action.queryOrThrow fun db => Action.single (db.users.filter test)) >>= fun user =>
        store user >>= tail user))
    (storing : ∀ user state, (∃ row ∈ state.store.db.users, row.id = user.id) →
      (store user).wp .staying call (fun result later => Silent call state later ∧
        ∃ current, result = .ok current ∧
          (so user ∨ ∃ row ∈ later.store.db.users, row.id = user.id ∧ so row)) state)
    (finishing : ∀ user current state, (tail user current).wp .staying call
      (fun result later => Silent call state later ∧ ∃ value, result = .ok value ∧ good value)
        state)
    (ended : (pool.run schedule).outcome? call = some outcome) :
    (∃ value, outcome = .ok value ∧ good value) ∧ Stored pool schedule userId so ∧
      (pool.run schedule).shared.eventsOf call = pool.shared.eventsOf call := by
  -- The user is read.
  obtain ⟨early, reading, later, rfl, absent, read, resumed, -⟩ :=
    Pool.next_atomically running ended
  obtain ⟨stays, healthyEarly⟩ := healthy.run early
  have healthyRead : Healthy ((pool.run early).step call reading) :=
    (healthyEarly.run [(call, reading)]).2
  obtain ⟨user, member, rfl⟩ := stays.user stored
  have found : Action.single ((pool.run early).shared.store.db.users.filter test) = .ok user := by
    have only := healthyEarly.attributed.users.filter_key member
    rw [funext tests, only]
    rfl
  dsimp only at resumed
  rw [found] at resumed
  change ((pool.run early).step call reading).calls[call]? = some (store user >>= tail user)
    at resumed
  have silentRead :
      ((pool.run early).step call reading).shared.eventsOf call = pool.shared.eventsOf call := by
    rw [read, Shared.eventsOf_advance, List.append_nil]
    exact (Pool.run_untouched_of_absent absent).eventsOf
  have memberRead : user ∈ ((pool.run early).step call reading).shared.store.db.users := by
    rw [read]
    exact member
  rw [Pool.run_append] at ended ⊢
  change (((pool.run early).step call reading).run later).outcome? call = _ at ended
  -- It is saved.
  obtain ⟨saving, rest, result, rfl, ⟨silent, current, rfl, saved⟩, finish⟩ :=
    Pool.reaches UsersStay.refl UsersStay.trans healthyRead.verified
      (Pool.admitted_any later) resumed
      (storing user _ ⟨user, memberRead, rfl⟩) ended
  have healthySaved := (healthyRead.run saving).2
  rw [Pool.run_append] at ended
  -- The rest reports the result.
  obtain ⟨last, untouched, silentEnd, good⟩ :=
    healthySaved.ends finish (finishing user current _) ended
  refine ⟨good, ?_, ?_⟩
  · rcases saved with already | ⟨row, rowMember, own, written⟩
    · exact ⟨early, _, rfl, user, member, rfl, already⟩
    · refine ⟨early ++ (call, reading) :: saving, rest, by simp, row, ?_, own, written⟩
      rw [Pool.run_append]
      exact rowMember
  · change (((pool.run early).step call reading).run (saving ++ rest)).shared.eventsOf call = _
    rw [Pool.run_append, untouched.eventsOf, silentEnd.2, silent.2, silentRead]

/-! ### The three consumers -/

namespace PasswordResetService

/-- The new password and stamp, saved. -/
def storeAsync (services : Services) (newPassword : String) (user : User) : Action User := do
  let salt ← Action.draw
  let stamp ← Action.draw
  let current :=
    { user with
      passwordHash := some (services.passwordHasher.hash newPassword salt)
      securityStamp := stamp }
  Action.saveChanges fun savedAt db => db.updateUser savedAt user current
  return current

/-- What follows the save. -/
def finishAsync (http : HttpContext) (userId : Guid) (current : User) : Action Unit := do
  let revoked ← SessionService.revokeAllForUserAsync userId none .passwordReset
  AuditLogger.logAsync http .passwordResetCompleted (some userId)
  SecurityNotificationService.notifyAsync (some current) userId "Password reset completed"
  if 0 < revoked then
    AuditLogger.logAsync http .sessionRevoked (some userId)

/-- What follows the reading of the token. -/
def resumeAsync (services : Services) (http : HttpContext) (newPassword : String)
    (owner : Option Guid) : Action TokenResult := do
  let userId ← Action.orThrow .invalidToken owner
  let user ← Action.queryOrThrow fun db => Action.single (db.users.filter (·.id = userId))
  let current ← storeAsync services newPassword user
  finishAsync http userId current
  return .passwordReset

theorem program_eq (services : Services) (http : HttpContext) (token newPassword : String) :
    (TokenOperation.confirmReset http token newPassword).program services =
      Consumes (services.tokenGenerator.hash token) .passwordReset .passwordReset
        fun _ consumed =>
          if consumed = 0 then throw .invalidToken
          else VerificationTokens.userOf (services.tokenGenerator.hash token) >>=
            resumeAsync services http newPassword := by
  simp only [TokenOperation.program, confirmAsync, Consumes, Program.bind_assoc]
  congr 1
  funext now
  congr 1
  funext consumed
  split
  · rfl
  · rw [Program.bind_assoc]
    congr 1
    funext owner
    simp only [Program.bind_assoc, Program.pure_bind, resumeAsync, storeAsync, finishAsync]

theorem wp_storeAsync {services : Services} {newPassword : String} {user : User} {call : ℕ}
    {state : State} (stored : ∃ row ∈ state.store.db.users, row.id = user.id) :
    let isNew (row : User) : Prop :=
      ∃ salt, row.passwordHash = some (services.passwordHasher.hash newPassword salt)
    (storeAsync services newPassword user).wp .staying call (fun result later =>
      Silent call state later ∧ ∃ current, result = .ok current ∧
        (isNew user ∨ ∃ row ∈ later.store.db.users, row.id = user.id ∧ isNew row)) state := by
  intro isNew
  have calm := Calm.silent call
  rw [storeAsync, Program.wp_bind]
  refine Action.calm_draw calm ?_
  intro beforeSalt salted reached drew _
  have reached := calm.trans _ _ _ reached drew
  rw [Program.andThen_ok, Program.wp_bind]
  refine Action.calm_draw calm ?_
  intro beforeStamp stamped drawn drewStamp _
  have reached := calm.trans _ _ _ reached (calm.trans _ _ _ drawn drewStamp)
  rw [Program.andThen_ok, Program.wp_bind]
  refine @wp_saveUser _ _ _ _ _ _ User.passwordHash _ (fun _ _ => rfl) (reached.1.user stored) ?_
  intro saved silent written
  refine ⟨calm.trans _ _ _ reached silent, _, rfl, ?_⟩
  rcases written with same | ⟨row, member, own, password⟩
  · exact .inl ⟨_, same⟩
  · exact .inr ⟨row, member, own, _, password⟩

theorem wp_finishAsync {http : HttpContext} {userId : Guid} {current : User} {call : ℕ}
    {state : State} :
    (finishAsync http userId current >>= fun _ => pure TokenResult.passwordReset).wp .staying call
      (fun result later => Silent call state later ∧ ∃ value, result = .ok value ∧
        value = .passwordReset)
      state := by
  have calm := Calm.silent call
  simp only [finishAsync, Program.bind_assoc, SessionService.revokeAllForUserAsync,
    SessionService.updateSessions, Program.wp_bind]
  refine Action.calm_utcNow calm ?_
  intro read reading
  rw [Program.andThen_ok, Program.wp_bind]
  refine Action.wp_execute calm ?_
  intro before input silent _
  have reached := calm.trans _ _ _ reading silent
  refine And.imp_right (fun revoked => ?_) (reached.written ?users ?tokens)
  case users => rfl
  case tokens => rfl
  rw [Program.andThen_ok, Program.wp_bind]
  refine AuditLogger.wp_logAsync calm ?_
  intro logged audited
  rw [Program.andThen_ok, Program.wp_bind]
  refine SecurityNotificationService.wp_notifyAsync_tracked calm ?_
  intro notified mailed
  have reached := calm.trans _ _ _ revoked (calm.trans _ _ _ audited mailed)
  rw [Program.andThen_ok, Program.wp_bind]
  split
  · refine AuditLogger.wp_logAsync calm ?_
    intro later reported
    exact ⟨calm.trans _ _ _ reached reported, _, rfl, rfl⟩
  · exact ⟨reached, _, rfl, rfl⟩

end PasswordResetService

namespace EmailVerificationService

/-- The verified user, saved. -/
def storeAsync (user : User) : Action User := do
  let current := { user with emailVerified := true }
  Action.saveChanges fun savedAt db => db.updateUser savedAt user current
  return current

/-- What follows the save. -/
def finishAsync (http : HttpContext) (now : Instant) (user : User) : Action TokenResult := do
  AuditLogger.logAsync http .emailVerified (some user.id)
  return .emailVerified { email := user.email, verifiedAt := now }

/-- What follows the reading of the token. -/
def resumeAsync (http : HttpContext) (now : Instant) (owner : Option Guid) :
    Action TokenResult := do
  let user ← Action.queryOrThrow fun db =>
    Action.single (db.users.filter fun candidate => some candidate.id = owner)
  let _ ← storeAsync user
  finishAsync http now user

theorem program_eq (services : Services) (http : HttpContext) (token : String) :
    (TokenOperation.confirmEmail http token).program services =
      Consumes (services.tokenGenerator.hash token) .emailVerification .emailVerification
        fun now consumed =>
          if consumed = 0 then throw .invalidToken
          else VerificationTokens.userOf (services.tokenGenerator.hash token) >>=
            resumeAsync http now := by
  simp only [TokenOperation.program, confirmAsync, Consumes, Program.bind_assoc]
  congr 1
  funext now
  congr 1
  funext consumed
  split
  · rfl
  · rw [verifyOwnerAsync, Program.bind_assoc]
    congr 1
    funext owner
    simp only [Program.bind_assoc, Program.pure_bind, resumeAsync, storeAsync, finishAsync]

theorem wp_storeAsync {user : User} {call : ℕ} {state : State}
    (stored : ∃ row ∈ state.store.db.users, row.id = user.id) :
    (storeAsync user).wp .staying call (fun result later => Silent call state later ∧
      ∃ current, result = .ok current ∧ (user.emailVerified = true ∨
        ∃ row ∈ later.store.db.users, row.id = user.id ∧ row.emailVerified = true)) state := by
  rw [storeAsync, Program.wp_bind]
  refine @wp_saveUser _ _ _ _ _ _ User.emailVerified _ (fun _ _ => rfl) stored ?_
  intro saved silent written
  exact ⟨silent, _, rfl, written⟩

theorem wp_finishAsync {http : HttpContext} {now : Instant} {user : User} {call : ℕ}
    {state : State} :
    (finishAsync http now user).wp .staying call (fun result later => Silent call state later ∧
      ∃ value, result = .ok value ∧ ∃ response, value = .emailVerified response) state := by
  rw [finishAsync, Program.wp_bind]
  refine AuditLogger.wp_logAsync (Calm.silent call) ?_
  intro later silent
  exact ⟨silent, _, rfl, _, rfl⟩

end EmailVerificationService

theorem MfaTicketService.program_eq (services : Services) (ticket : String) :
    (TokenOperation.consumeTicket ticket).program services =
      Consumes (services.tokenGenerator.hash ticket) .mfaChallenge .mfaTicket
        fun _ consumed =>
          if consumed = 0 then pure (.ticketConsumed none)
          else VerificationTokens.userOf (services.tokenGenerator.hash ticket) >>= fun userId =>
            pure (.ticketConsumed userId) := by
  simp only [TokenOperation.program, consumeAsync, Consumes, Program.bind_assoc]
  congr 1
  funext now
  congr 1
  funext consumed
  split
  · rfl
  · rfl

/-! ### The cleanup -/

namespace ExpiredAuthArtifactCleanupService

/-- A batch is deleted without a report. -/
theorem wp_deleteBatch {read : Db → List Guid} {count : List Guid → Db → ℕ}
    {write : List Guid → Db → Db} {call : ℕ} {state : State}
    (users : ∀ ids db, (write ids db).users = db.users)
    (tokens : ∀ ids db, List.Sublist
      ((write ids db).verificationTokens.map VerificationToken.issued)
      (db.verificationTokens.map VerificationToken.issued)) :
    (Action.query read >>= fun ids =>
      if 0 < ids.length then
        Action.execute (count ids) (write ids) (fun _ => []) >>= fun _ => pure ()
      else pure ()).wp .staying call
        (fun result later => Silent call state later ∧ result = .ok ()) state := by
  have calm := Calm.silent call
  rw [Program.wp_bind]
  refine Action.calm_query calm ?_
  intro queried silent
  rw [Program.andThen_ok]
  split
  · rw [Program.wp_bind]
    refine Action.wp_execute calm ?_
    intro before input waited _
    have reached := calm.trans _ _ _ silent waited
    obtain ⟨step, written⟩ := @UsersStay.written state before call input
      { before.store with db := write (read queried.store.db) before.store.db } [] reached.1
      (by rw [users]) (tokens _ _)
    refine ⟨step, ⟨written, ?_⟩, rfl⟩
    rw [Shared.eventsOf_advance, List.append_nil]
    exact reached.2
  · exact ⟨silent, rfl⟩

theorem wp_cleanupOnceAsync {services : Services} {call : ℕ} {state : State} :
    ((TokenOperation.cleanup).program services).wp .staying call
      (fun _ later => Silent call state later) state := by
  have calm := Calm.silent call
  have next : ∀ {program : Action Unit} {rest : Unit → Action TokenResult} {before : State},
      Silent call state before →
      program.wp .staying call
        (fun result later => Silent call before later ∧ result = .ok ()) before →
      (∀ later, Silent call state later →
        (rest ()).wp .staying call (fun _ last => Silent call state last) later) →
      (program >>= rest).wp .staying call (fun _ last => Silent call state last) before := by
    intro program rest before reached deletes continues
    rw [Program.wp_bind]
    refine Program.wp_mono deletes ?_
    rintro _ later ⟨silent, rfl⟩
    exact continues later (calm.trans _ _ _ reached silent)
  simp only [TokenOperation.program, cleanupOnceAsync, Program.bind_assoc]
  rw [Program.wp_bind]
  refine Action.calm_utcNow calm ?_
  intro read reading
  rw [Program.andThen_ok]
  refine next reading (wp_deleteBatch (fun _ _ => rfl) fun _ _ => .refl _) fun _ reached => ?_
  refine next reached (wp_deleteBatch (fun _ _ => rfl) fun _ _ => .refl _) fun _ reached => ?_
  refine next reached (wp_deleteBatch (fun _ _ => rfl) fun _ _ => List.filter_sublist.map _)
    fun _ reached => ?_
  exact next reached (wp_deleteBatch (fun _ _ => rfl) fun _ _ => .refl _) fun _ reached => reached

end ExpiredAuthArtifactCleanupService

/-! ### Consumptions and cleanups -/

/-- The effect of the consumption of a token of this user. The cleanup consumes nothing. -/
def TokenOperation.Completes (services : Services) (pool : TokenPool) (schedule : List (ℕ × Input))
    (userId : Guid) (outcome : Except AppException TokenResult) : TokenOperation → Prop
  | confirmReset _ _ newPassword =>
      outcome = .ok .passwordReset ∧ Stored pool schedule userId fun user =>
        ∃ salt, user.passwordHash = some (services.passwordHasher.hash newPassword salt)
  | confirmEmail _ _ =>
      (∃ response, outcome = .ok (.emailVerified response)) ∧
        Stored pool schedule userId fun user => user.emailVerified = true
  | consumeTicket _ => outcome = .ok (.ticketConsumed (some userId))
  | cleanup => True

/-- Every call that has consumed a token, and has ended, has completed its effect, if the cleanups
delete no token between its consumption and the next step of the call that consumed it. -/
theorem consumption_completes {services : Services} {operations : List TokenOperation}
    {start : State}
    {schedule : List (ℕ × Input)} (attributed : start.store.db.Attributed)
    (unreported : start.journal = [])
    (spares : SparesConsumed (operatingTokens services operations start) [] schedule)
    {call : ℕ} {op : TokenOperation} (found : operations[call]? = some op)
    {token : VerificationToken} {consumer : TokenConsumer}
    (consumed : .verificationTokenConsumed token consumer ∈
      ((operatingTokens services operations start).run schedule).shared.eventsOf call)
    {outcome : Except AppException TokenResult}
    (ended : ((operatingTokens services operations start).run schedule).outcome? call =
      some outcome) :
    ∃ userId, token.userId = some userId ∧
      op.Completes services (operatingTokens services operations start) schedule userId
        outcome := by
  have healthy : Healthy (operatingTokens services operations start) := by
    refine ⟨attributed, Pool.verified_of_wp UsersStay.refl ?_⟩
    intro other program running
    simp only [operatingTokens, List.getElem?_map, Option.map_eq_some_iff] at running
    obtain ⟨op, -, rfl⟩ := running
    refine Program.wp_mono (op.usersStay other start) ?_
    intro _ _ _
    trivial
  have running :
      (operatingTokens services operations start).calls[call]? = some (op.program services) := by
    simp only [operatingTokens, List.getElem?_map, found, Option.map_some]
  have silent : (operatingTokens services operations start).shared.eventsOf call = [] := by
    simp only [operatingTokens, Shared.eventsOf, unreported, List.filter_nil, List.map_nil]
  have reported := List.ne_nil_of_mem consumed
  cases op with
  | cleanup =>
      obtain ⟨last, untouched, quiet⟩ := healthy.ends running
        ExpiredAuthArtifactCleanupService.wp_cleanupOnceAsync ended
      rw [untouched.eventsOf, quiet.2, silent] at consumed
      cases consumed
  | confirmReset http presented newPassword =>
      rw [PasswordResetService.program_eq] at running
      obtain ⟨before, after, now, hit, userId, rfl, events, owner, stored, resumed⟩ :=
        healthy.reaches_rest (by decide) silent spares running (fun _ => ⟨_, rfl⟩)
          (fun _ count positive => if_neg positive) ended reported
      have healthyRest := (healthy.run before).2
      rw [Pool.run_append] at ended consumed
      obtain ⟨⟨value, rfl, rfl⟩, moment, same⟩ := healthyRest.stores stored (fun _ => rfl) resumed
        (fun user state present => PasswordResetService.wp_storeAsync present)
        (fun user current state => PasswordResetService.wp_finishAsync) ended
      rw [same, events, List.mem_singleton] at consumed
      cases consumed
      exact ⟨userId, owner, rfl, moment.later⟩
  | confirmEmail http presented =>
      rw [EmailVerificationService.program_eq] at running
      obtain ⟨before, after, now, hit, userId, rfl, events, owner, stored, resumed⟩ :=
        healthy.reaches_rest (by decide) silent spares running (fun _ => ⟨_, rfl⟩)
          (fun _ count positive => if_neg positive) ended reported
      have healthyRest := (healthy.run before).2
      rw [Pool.run_append] at ended consumed
      obtain ⟨⟨value, rfl, response, rfl⟩, moment, same⟩ := healthyRest.stores stored
        (fun user => by simp) resumed
        (fun user state present => EmailVerificationService.wp_storeAsync present)
        (fun user current state => EmailVerificationService.wp_finishAsync) ended
      rw [same, events, List.mem_singleton] at consumed
      cases consumed
      exact ⟨userId, owner, ⟨response, rfl⟩, moment.later⟩
  | consumeTicket ticket =>
      rw [MfaTicketService.program_eq] at running
      obtain ⟨before, after, now, hit, userId, rfl, events, owner, stored, resumed⟩ :=
        healthy.reaches_rest (by decide) silent spares running (fun _ => ⟨_, rfl⟩)
          (fun _ count positive => if_neg positive) ended reported
      rw [Pool.run_append] at ended consumed
      obtain ⟨finished, same⟩ := Pool.run_of_done resumed after
      rw [Pool.outcome?_eq_some, finished] at ended
      cases ended
      rw [same, events, List.mem_singleton] at consumed
      cases consumed
      exact ⟨userId, owner, rfl⟩

/-- A user with a mailed reset token. -/
def resetRequested : World where
  db :=
    { users :=
      [{ id := 1, email := "ada@example.test", passwordHash := some "s$old", securityStamp := 2 }]
      verificationTokens := [{
        id := 3, userId := some 1, type := .passwordReset, tokenHash :=
          "sha256:t", expiresAt := 1000 }] }
  supply := 4

/-- A confirmation and a pass of the cleanup. -/
def confirmationAndCleanup : TokenPool :=
  operatingTokens .sample [.confirmReset {} "t" "new", .cleanup]
    (Shared.initial resetRequested ⟨90, false⟩)

def tokenSteps (call count : ℕ) : List (ℕ × Input) := List.replicate count (call, ⟨100, false⟩)

theorem resetRequested_attributed : resetRequested.db.Attributed where
  users := by decide
  tokens := by decide
  owners := by decide

set_option maxRecDepth 10000 in
/-- The cleanup deletes the token once the confirmation has read it again. -/
theorem consumption_completes_sample :
    ∃ userId, some 1 = some userId ∧
      (TokenOperation.confirmReset {} "t" "new").Completes .sample confirmationAndCleanup
        (tokenSteps 0 3 ++ tokenSteps 1 20 ++ tokenSteps 0 20) userId (.ok .passwordReset) := by
  have spares : SparesConsumed confirmationAndCleanup []
      (tokenSteps 0 3 ++ tokenSteps 1 20 ++ tokenSteps 0 20) := by decide +kernel
  refine @consumption_completes .sample _ _ _ resetRequested_attributed rfl spares 0 _ rfl
    ⟨3, some 1, .passwordReset, "sha256:t", 1000, none, 0, 0⟩ .passwordReset ?_ _ ?_
  · decide +kernel
  · decide +kernel

/-- It deletes the token as soon as it is consumed: the confirmation fails, the password stays. -/
theorem consumption_lost :
    let final := confirmationAndCleanup.run (tokenSteps 0 2 ++ tokenSteps 1 20 ++ tokenSteps 0 20)
    .verificationTokenConsumed ⟨3, some 1, .passwordReset, "sha256:t", 1000, none, 0, 0⟩
        .passwordReset ∈
        final.shared.eventsOf 0 ∧
      final.outcome? 0 = some (.error (.invalidOperation "Sequence contains no elements.")) ∧
        final.shared.store.db.users = resetRequested.db.users := by
  decide +kernel

end AuthStartpack
