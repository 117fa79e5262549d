import AuthStartpack.Login.Failures
import AuthStartpack.Program.Pool
import AuthStartpack.Program.Sequential
import AuthStartpack.Program.Serial
import Mathlib.Data.List.Induction

/-!
Owns what concurrent failures make of an account. A login counts a failure on
the row that it read before the slow hash, and its save overwrites what others
have counted since. Where every save finds the lockout columns as they were
read, the failures add up as in some serial execution of the same logins.
-/

namespace AuthStartpack

/-- The request of a sign-in with a password. -/
structure PasswordLogin where
  http : HttpContext
  email : String
  password : String
deriving DecidableEq, Repr

instance : Inhabited PasswordLogin := ⟨⟨{}, "", ""⟩⟩

def PasswordLogin.program (services : Services) (login : PasswordLogin) : Action LoginResult :=
  LoginService.loginAsync services login.http login.email login.password

/-- A login on this account whose password does not match. -/
structure WrongPassword (services : Services) (account : User) (login : PasswordLogin) : Prop where
  address : sameEmail services.lower account.email (trim login.email) = true
  wrong : services.passwordHasher.verify login.password
    (account.passwordHash.getD services.dummyPasswordHash) = false

/-- The user whose failure a save counted, as the login had read it. -/
def Event.countedUser? : Event → Option User
  | .loginFailureCounted user _ => some user
  | _ => none

def Event.countedAt? : Event → Option Instant
  | .loginFailureCounted _ countedAt => some countedAt
  | _ => none

/-- Every save of a failure finds the lockout columns as the login had read them. -/
def CountsFresh (state : State) (_ : ℕ) (_ : Input) (events : List Event) : Prop :=
  ∀ event ∈ events, ∀ user ∈ event.countedUser?, ∀ row ∈ state.store.db.users,
    row.id = user.id → row.lockout = user.lockout

instance (state : State) (call : ℕ) (input : Input) (events : List Event) :
    Decidable (CountsFresh state call input events) :=
  inferInstanceAs (Decidable (∀ event ∈ events, ∀ user ∈ event.countedUser?,
    ∀ row ∈ state.store.db.users, row.id = user.id → row.lockout = user.lockout))

/-- The failures counted so far, with the calls that counted them and their readings. -/
def Shared.countedFailures (state : State) : List (ℕ × Instant) :=
  state.journal.filterMap fun entry => entry.event.countedAt?.map fun now => (entry.call, now)

@[simp]
theorem Shared.countedFailures_advance (state : State) (call : ℕ) (input : Input)
    (outcome : World × List Event) :
    (state.advance call input outcome).countedFailures =
      state.countedFailures ++ (outcome.2.filterMap Event.countedAt?).map
        fun now => (call, now) := by
  simp [Shared.countedFailures, List.filterMap_append, List.filterMap_map, List.map_filterMap]

/-! ### Rows -/

/-- The columns of a user that no failure changes. -/
def User.frozen (user : User) : User := { user.withLockout ⟨0, none⟩ with updatedAt := 0 }

/-- The `citext` key of the address. -/
def User.address (lower : String → String) (user : User) : String := lower user.email

theorem User.id_of_frozen {left right : User} (same : left.frozen = right.frozen) :
    left.id = right.id := by
  have columns : left.frozen.id = right.frozen.id := congrArg User.id same
  exact columns

theorem User.passwordHash_of_frozen {left right : User} (same : left.frozen = right.frozen) :
    left.passwordHash = right.passwordHash := by
  have columns : left.frozen.passwordHash = right.frozen.passwordHash :=
    congrArg User.passwordHash same
  exact columns

section Rows

variable {rows users : List User} {account row : User} {email : String}

/-- A table with the same rows up to failures has the account. -/
theorem exists_frozen (same : users.map User.frozen = rows.map User.frozen)
    (member : account ∈ rows) : ∃ row ∈ users, row.frozen = account.frozen := by
  have present := List.mem_map_of_mem (f := User.frozen) member
  rw [← same] at present
  exact List.mem_map.mp present

/-- The query of a login on the account answers with its row. -/
theorem singleOrDefault_withEmail {services : Services} {db : Db}
    (same : db.users.map User.frozen = rows.map User.frozen)
    (keyed : Table.Keyed (User.address services.lower) rows) (member : account ∈ rows)
    (address : sameEmail services.lower account.email email = true) :
    ∃ row ∈ db.users, row.frozen = account.frozen ∧ ∃ credential,
      Action.singleOrDefault (LoginService.withEmail services email db) =
        .ok (some (row, credential)) := by
  obtain ⟨row, rowMember, frozen⟩ := exists_frozen same member
  have addresses : db.users.map (User.address services.lower) =
      rows.map (User.address services.lower) := by
    have viaFrozen : ∀ list : List User, list.map (User.address services.lower) =
        (list.map User.frozen).map (User.address services.lower) := by
      intro list
      rw [List.map_map]
      rfl
    rw [viaFrozen, viaFrozen rows, same]
  have keyedNow : Table.Keyed (User.address services.lower) db.users := by
    unfold Table.Keyed
    rw [addresses]
    exact keyed
  have sameAddress : row.address services.lower = services.lower email := by
    have ofRow : row.frozen.address services.lower = account.frozen.address services.lower :=
      congrArg (User.address services.lower) frozen
    have ofAccount : account.frozen.address services.lower = services.lower email :=
      of_decide_eq_true address
    exact ofRow.trans ofAccount
  have only : db.users.filter (sameEmail services.lower ·.email email) = [row] := by
    rw [← keyedNow.filter_key rowMember, sameAddress]
    rfl
  refine ⟨row, rowMember, frozen, db.totpCredentials.find? (·.userId = row.id), ?_⟩
  simp [LoginService.withEmail, only, Action.singleOrDefault]

/-- The rows once a failure is saved on a row that is stored as it was read. -/
theorem counted_rows (savedAt : Instant) {lockout : Lockout}
    (fresh : ∀ stored ∈ users, stored.id = row.id → stored.lockout = row.lockout)
    (changes : row.withLockout lockout ≠ row) :
    let counted := Table.updateWhere
      (fun stored => stored.id = row.id && row.withLockout lockout ≠ row)
      (row.merge (row.withLockout lockout) savedAt) users
    counted.map User.frozen = users.map User.frozen ∧
      ∀ stored ∈ counted, stored.id = row.id → stored.lockout = lockout := by
  refine ⟨Table.map_updateWhere ?_, ?_⟩
  · intro stored
    simp [User.frozen, User.withLockout, User.merge]
  · intro stored member same
    rcases Table.mem_updateWhere_cases member with ⟨-, miss⟩ | ⟨old, oldMember, hit, rfl⟩
    · simp [same, changes] at miss
    · have asRead : old.lockout = row.lockout := by
        refine fresh old oldMember ?_
        simpa [changes] using hit
      obtain ⟨count, endsAt⟩ := Lockout.mk.inj asRead
      simp [User.lockout, User.merge, User.withLockout, count, endsAt]

end Rows

/-! ### Calls -/

/-- The failures of an account from the state `start` on: they have added up, one after the other,
and every reading of a call is one that `reads` allows it. -/
structure Counting (services : Services) (start : State) (account : User)
    (reads : ℕ → Instant → Prop) (state : State) : Prop where
  users : state.store.db.users.map User.frozen = start.store.db.users.map User.frozen
  lockout : ∀ row ∈ state.store.db.users, row.id = account.id → row.lockout =
    serially (Lockout.afterFailure services.lockoutOptions) account.lockout state.countedFailures
  known : ∀ failure ∈ state.countedFailures, reads failure.1 failure.2

/-- What every step of a login with a wrong password keeps. -/
def Counts (services : Services) (start : State) (account : User) (reads : ℕ → Instant → Prop)
    (before after : State) : Prop :=
  (Counting services start account reads before → Counting services start account reads after) ∧
    before.journal <+: after.journal

/-- Steps that count on fresh rows, at readings that `reads` allows. -/
def ReadsFresh (reads : ℕ → Instant → Prop) (state : State) (call : ℕ) (input : Input)
    (events : List Event) : Prop :=
  CountsFresh state call input events ∧ reads call input.now

/-- A login that has ended has counted one failure, or would have counted none in a state on the
way. -/
def Ended (services : Services) (account : User) (reads : ℕ → Instant → Prop) (call : ℕ)
    (state : State) : Prop :=
  (∃ user now, state.eventsOf call = [.loginFailureCounted user now]) ∨
    (state.eventsOf call = [] ∧ ∃ now, reads call now ∧ ∃ past, past <+: state.countedFailures ∧
      (serially (Lockout.afterFailure services.lockoutOptions) account.lockout past).afterFailure
        services.lockoutOptions now =
      serially (Lockout.afterFailure services.lockoutOptions) account.lockout past)

section Calls

variable {services : Services} {start : State} {account : User} {reads : ℕ → Instant → Prop}

theorem Counts.refl (state : State) : Counts services start account reads state state :=
  ⟨id, List.prefix_refl _⟩

theorem Counts.trans (first second third : State)
    (early : Counts services start account reads first second)
    (late : Counts services start account reads second third) :
    Counts services start account reads first third :=
  ⟨late.1 ∘ early.1, early.2.trans late.2⟩

theorem calm_counts (call : ℕ) :
    Calm (.concurrent (ReadsFresh reads) (Counts services start account reads)) call
      fun before after => Counts services start account reads before after ∧
        after.eventsOf call = before.eventsOf call := by
  refine Calm.reporting call Counts.refl Counts.trans ?_
  intro state input world _ step
  obtain ⟨auditLogEntries, equal⟩ := step.db
  refine ⟨?_, by simp⟩
  intro counting
  have same : (state.advance call input (world, [])).countedFailures = state.countedFailures := by
    simp
  constructor
  · rw [Shared.advance_store, equal]
    exact counting.users
  · rw [Shared.advance_store, equal, same]
    exact counting.lockout
  · rw [same]
    exact counting.known

/-- A save on a fresh row adds one failure. -/
theorem Counts.of_failure {state : State} {call : ℕ} {reading saving : Input} {row : User} {db : Db}
    (counting : Counting services start account reads state)
    (isAccount : row.id = account.id)
    (present : ∃ stored ∈ state.store.db.users, stored.id = row.id)
    (changes : row.withLockout (row.lockout.afterFailure services.lockoutOptions reading.now) ≠ row)
    (saved : state.store.db.updateUser saving.now row
      (row.withLockout (row.lockout.afterFailure services.lockoutOptions reading.now)) = .ok db)
    (fresh : ∀ stored ∈ state.store.db.users, stored.id = row.id → stored.lockout = row.lockout)
    (allowed : reads call reading.now) :
    Counts services start account reads state (state.advance call saving
      ({ state.store with db }, [.loginFailureCounted row reading.now])) := by
  refine ⟨fun _ => ?_, by simp⟩
  obtain ⟨-, rfl⟩ := Db.updateUser_eq_ok.mp saved
  obtain ⟨frozen, counted⟩ := counted_rows saving.now fresh changes
  obtain ⟨stored, storedMember, storedId⟩ := present
  have asRead : row.lockout = serially (Lockout.afterFailure services.lockoutOptions)
      account.lockout state.countedFailures := by
    rw [← fresh stored storedMember storedId]
    exact counting.lockout stored storedMember (storedId.trans isAccount)
  constructor
  · exact frozen.trans counting.users
  · intro later laterMember same
    rw [counted later laterMember (same.trans isAccount.symm), asRead]
    simp [Event.countedAt?]
  · intro failure member
    simp only [Shared.countedFailures_advance, List.mem_append] at member
    rcases member with old | new
    · exact counting.known failure old
    · simp only [Event.countedAt?, List.filterMap_cons, List.filterMap_nil, List.map_cons,
        List.map_nil, List.mem_singleton] at new
      rw [new]
      exact allowed

theorem PasswordLogin.ends {login : PasswordLogin} {call : ℕ}
    (keyed : Table.Keyed (User.address services.lower) start.store.db.users)
    (member : account ∈ start.store.db.users) (wrong : WrongPassword services account login)
    (counting : Counting services start account reads start) (silent : start.eventsOf call = []) :
    (login.program services).wp
      (.concurrent (ReadsFresh reads) (Counts services start account reads)) call
      (fun _ => Ended services account reads call) start := by
  have calm : Calm (.concurrent (ReadsFresh reads) (Counts services start account reads)) call
      fun before after => Counts services start account reads before after ∧
        after.eventsOf call = before.eventsOf call := calm_counts call
  refine LoginService.wp_loginAsync_wrong calm ?_
  intro seen see
  have seenCounting := see.1.1 counting
  obtain ⟨row, rowMember, frozen, credential, found⟩ :=
    singleOrDefault_withEmail seenCounting.users keyed member wrong.address
  have isAccount := User.id_of_frozen frozen
  have samePassword := User.passwordHash_of_frozen frozen
  have asRead := seenCounting.lockout row rowMember isAccount
  have stays : ∀ {state : State},
      state.store.db.users.map User.frozen = start.store.db.users.map User.frozen →
      ∃ stored ∈ state.store.db.users, stored.id = row.id := by
    intro state users
    obtain ⟨stored, storedMember, storedFrozen⟩ :=
      exists_frozen (users.trans seenCounting.users.symm) rowMember
    exact ⟨stored, storedMember, User.id_of_frozen storedFrozen⟩
  refine ⟨row, credential, found, samePassword ▸ wrong.wrong, ?_⟩
  constructor
  case idle =>
    intro earlier reading later exception admitted unchanged rests
    refine .inr
      ⟨by rw [rests.2, see.2, silent], reading.now, admitted.2, seen.countedFailures, ?_, ?_⟩
    · exact rests.1.2.filterMap _
    · rw [← asRead]
      exact unchanged
  case counted =>
    intro earlier reading current saving db readingAdmitted reached counted changes saved admitted
    have now := reached.1.1 seenCounting
    refine ⟨Counts.of_failure now isAccount
      (stays now.users) changes saved ?_ readingAdmitted.2, ?_⟩
    · intro other otherMember same
      exact admitted.1 _ (List.mem_singleton_self _) row rfl other otherMember same
    · intro later exception rests
      refine .inl ⟨row, reading.now, ?_⟩
      rw [rests.2, Shared.eventsOf_advance, reached.2, see.2, silent, List.nil_append]
  case refused =>
    intro current later now counted exception reached refused rests
    obtain ⟨stored, storedMember, same⟩ := stays (reached.1.1 seenCounting).users
    exact absurd same (Db.updateUser_refused refused stored storedMember)

end Calls

/-! ### Serial executions -/

abbrev LoginRecord := Record PasswordLogin Input World Event AppException LoginResult

/-- The steps that read this clock. -/
abbrev ReadsOnly (now : Instant) (_ : State) (_ : ℕ) (input : Input) (_ : List Event) : Prop :=
  input.now = now

/-- The users stay as they are. -/
def SameUsers (before after : State) : Prop := after.store.db.users = before.store.db.users

instance (admits : State → ℕ → Input → List Event → Prop) (call : ℕ) :
    Calm (.alone admits fun _ _ => True) call SameUsers where
  refl _ := rfl
  trans _ _ _ early late := late.trans early
  rely _ _ same := same ▸ rfl
  quiet state _ _ _ step := by
    obtain ⟨auditLogEntries, equal⟩ := step.db
    refine ⟨trivial, ?_⟩
    simp [SameUsers, equal]

/-- The rows are those of `rows` up to failures, and the account has this lockout. -/
structure HasLockout (rows : List User) (account : User) (lockout : Lockout) (state : State) :
    Prop where
  users : state.store.db.users.map User.frozen = rows.map User.frozen
  lockout : ∀ row ∈ state.store.db.users, row.id = account.id → row.lockout = lockout

section Serial

variable {services : Services} {rows : List User} {account : User}

theorem HasLockout.of_same {lockout : Lockout} {before after : State}
    (has : HasLockout rows account lockout before) (same : SameUsers before after) :
    HasLockout rows account lockout after := by
  constructor
  · rw [same]
    exact has.users
  · rw [same]
    exact has.lockout

/-- Without interruption, a login with a wrong password is one failure. -/
theorem PasswordLogin.fails {login : PasswordLogin} {lockout : Lockout} {before : State} (call : ℕ)
    (now : Instant) (keyed : Table.Keyed (User.address services.lower) rows)
    (member : account ∈ rows)
    (wrong : WrongPassword services account login) (has : HasLockout rows account lockout before) :
    (login.program services).wp (.alone (ReadsOnly now) fun _ _ => True) call
      (fun _ => HasLockout rows account (lockout.afterFailure services.lockoutOptions now))
        before := by
  have calm : Calm (.alone (ReadsOnly now) fun _ _ => True) call SameUsers := inferInstance
  refine LoginService.wp_loginAsync_wrong calm ?_
  intro seen see
  have seenHas := has.of_same see
  obtain ⟨row, rowMember, frozen, credential, found⟩ :=
    singleOrDefault_withEmail seenHas.users keyed member wrong.address
  have isAccount := User.id_of_frozen frozen
  have asRead := seenHas.lockout row rowMember isAccount
  refine ⟨row, credential, found, User.passwordHash_of_frozen frozen ▸ wrong.wrong, ?_⟩
  constructor
  case idle =>
    rintro earlier reading later exception rfl unchanged rests
    rw [asRead] at unchanged
    rw [unchanged]
    exact seenHas.of_same rests
  case counted =>
    rintro earlier reading current saving db rfl reached counted changes saved -
    refine ⟨trivial, ?_⟩
    intro later exception rests
    obtain ⟨-, rfl⟩ := Db.updateUser_eq_ok.mp saved
    have now := seenHas.of_same reached
    have fresh : ∀ stored ∈ current.store.db.users, stored.id = row.id →
        stored.lockout = row.lockout := by
      intro stored storedMember same
      rw [asRead]
      exact now.lockout stored storedMember (same.trans isAccount)
    obtain ⟨sameRows, newLockout⟩ := counted_rows saving.now fresh changes
    refine HasLockout.of_same ⟨sameRows.trans now.users, ?_⟩ rests
    intro stored storedMember same
    rw [newLockout stored storedMember (same.trans isAccount.symm), asRead]
  case refused =>
    intro current later now counted exception reached refused _
    have present : row ∈ current.store.db.users := by
      rw [reached]
      exact rowMember
    exact absurd rfl (Db.updateUser_refused refused row present)

/-- Any logins with wrong passwords, executed in turn at any readings. -/
theorem exists_serial {start : State} {lockout : Lockout}
    (keyed : Table.Keyed (User.address services.lower) rows)
    (member : account ∈ rows) (has : HasLockout rows account lockout start)
    (order : List (PasswordLogin × Instant))
    (wrong : ∀ entry ∈ order, WrongPassword services account entry.1) :
    ∃ (history : List LoginRecord) (final : State),
      RunsTo (fun _ _ _ _ => True) (PasswordLogin.program services) start history final ∧
      history.map (·.op) = order.map (·.1) ∧
      (∀ (position : ℕ) (record : LoginRecord), history[position]? = some record →
        ∃ entry ∈ order, record.op = entry.1 ∧ (record.op.program services).Completes
          (ReadsOnly entry.2) position record.before record.outcome record.after) ∧
      HasLockout rows account
        (serially (Lockout.afterFailure services.lockoutOptions) lockout order) final := by
  induction order using List.reverseRecOn with
  | nil =>
      refine ⟨[], start, .start, rfl, ?_, has⟩
      intro position record found
      simp at found
  | append_singleton earlier entry inductionHypothesis =>
      obtain ⟨history, before, runs, same, completes, hasBefore⟩ :=
        inductionHypothesis fun other otherMember =>
          wrong other (List.mem_append_left _ otherMember)
      have wrongEntry := wrong entry (by simp)
      have executable : ∃ outcome after, (entry.1.program services).Completes (ReadsOnly entry.2)
          history.length before outcome after :=
        Program.exists_completes (fun _ _ => ⟨⟨entry.2, false⟩, rfl⟩) _ _
      obtain ⟨outcome, after, ran⟩ := executable
      have hasAfter := ran.post_of_wp
        (PasswordLogin.fails history.length entry.2 keyed member wrongEntry hasBefore)
      refine ⟨history ++ [⟨entry.1, before, outcome, after⟩], after, ?_, ?_, ?_, ?_⟩
      · exact runs.snoc entry.1 (ran.of_journal fun _ _ _ _ _ => trivial)
      · simp [same]
      · intro position record found
        by_cases old : position < history.length
        · rw [List.getElem?_append_left old] at found
          obtain ⟨other, otherMember, sameOp, completed⟩ := completes position record found
          exact ⟨other, List.mem_append_left _ otherMember, sameOp, completed⟩
        · obtain ⟨inRange, equal⟩ := List.getElem?_eq_some_iff.mp found
          have last : position = history.length := by
            simp only [List.length_append, List.length_singleton] at inRange
            omega
          subst last
          simp only [List.getElem_concat_length] at equal
          subst equal
          exact ⟨entry, by simp, rfl, ran⟩
      · simpa using hasAfter

end Serial

/-! ### Concurrent logins -/

abbrev LoginPool := Pool Input World Event AppException LoginResult

/-- Logins that have not begun. -/
def loggingIn (services : Services) (logins : List PasswordLogin) (start : State) : LoginPool where
  shared := start
  calls := logins.map (PasswordLogin.program services)

/-- The logins of a schedule executed in turn, each at a clock reading that it had there. -/
structure SerialExecution (services : Services) (logins : List PasswordLogin)
    (schedule : List (ℕ × Input)) (start : State) (history : List LoginRecord) (final : State) :
    Prop where
  runs : RunsTo (fun _ _ _ _ => True) (PasswordLogin.program services) start history final
  same : (history.map (·.op)).Perm logins
  clock : ∀ (position : ℕ) (record : LoginRecord), history[position]? = some record →
    ∃ call input, logins[call]? = some record.op ∧ (call, input) ∈ schedule ∧
      (record.op.program services).Completes (ReadsOnly input.now) position record.before
        record.outcome record.after

/-- The account has the lockout that some serial execution of the logins leaves it with; as many
failures as the allowance has lock a fresh account. -/
structure FailuresCounted (services : Services) (logins : List PasswordLogin)
    (schedule : List (ℕ × Input)) (start : State) (account : User) (final : State) : Prop where
  serial : ∃ lockout history serialFinal,
    SerialExecution services logins schedule start history serialFinal ∧
      HasLockout start.store.db.users account lockout final ∧
      HasLockout start.store.db.users account lockout serialFinal
  locked : services.lockoutOptions.enabled = true → account.lockout = ⟨0, none⟩ →
    0 < logins.length → logins.length = services.lockoutOptions.maxFailedAttempts →
    ∃ call input, (call, input) ∈ schedule ∧ HasLockout start.store.db.users account
      ⟨services.lockoutOptions.maxFailedAttempts,
        some (input.now + services.lockoutOptions.lockoutDuration)⟩ final

/-- The readings of a call in a schedule. -/
def ReadIn (logins : List PasswordLogin) (schedule : List (ℕ × Input)) (call : ℕ) (now : Instant) :
    Prop :=
  call < logins.length ∧ ∃ input, (call, input) ∈ schedule ∧ input.now = now

/-- A call occurs among the failures as often as it has reported one. -/
theorem count_countedFailures (state : State) (call : ℕ) :
    (state.countedFailures.map (·.1)).count call =
      ((state.eventsOf call).filterMap Event.countedAt?).length := by
  unfold Shared.countedFailures Shared.eventsOf
  induction state.journal with
  | nil => rfl
  | cons entry rest inductionHypothesis =>
      simp only [List.filterMap_cons, List.filter_cons]
      cases counted : entry.event.countedAt? with
      | none =>
          by_cases own : entry.call = call
          · simpa [own, counted] using inductionHypothesis
          · simpa [own] using inductionHypothesis
      | some now =>
          by_cases own : entry.call = call
          · simpa [own, counted] using inductionHypothesis
          · simpa [own, List.count_cons] using inductionHypothesis

section Concurrent

variable {services : Services} {logins : List PasswordLogin} {start : State} {account : User}
variable {schedule : List (ℕ × Input)}

theorem Ended.later {reads : ℕ → Instant → Prop} {call : ℕ} {before after : State}
    (ended : Ended services account reads call before)
    (counts : Counts services start account reads before after)
    (own : after.eventsOf call = before.eventsOf call) :
    Ended services account reads call after := by
  rcases ended with ⟨user, now, counted⟩ | ⟨none, now, allowed, past, isPast, idle⟩
  · exact .inl ⟨user, now, own.trans counted⟩
  · exact .inr ⟨own.trans none, now, allowed, past, isPast.trans (counts.2.filterMap _), idle⟩

/-- Where every call has ended, the failures and the idle calls form one order of all calls. -/
theorem exists_order {reads : ℕ → Instant → Prop} {final : State} {calls : ℕ}
    (ended : ∀ call < calls, Ended services account reads call final)
    (known : ∀ failure ∈ final.countedFailures, reads failure.1 failure.2)
    (inRange : ∀ call now, reads call now → call < calls) :
    ∃ order : List (ℕ × Instant), (order.map (·.1)).Perm (List.range calls) ∧
      (∀ entry ∈ order, reads entry.1 entry.2) ∧
      serially (Lockout.afterFailure services.lockoutOptions) account.lockout order =
        serially (Lockout.afterFailure services.lockoutOptions) account.lockout
          final.countedFailures := by
  let counted := final.countedFailures.map (·.1)
  let idleCalls := (List.range calls).filter (· ∉ counted)
  have once : counted.Nodup := by
    rw [List.nodup_iff_count_le_one]
    intro call
    by_cases member : call ∈ counted
    · obtain ⟨failure, failureMember, rfl⟩ := List.mem_map.mp member
      rw [count_countedFailures]
      rcases ended _ (inRange _ _ (known failure failureMember)) with ⟨_, _, own⟩ | ⟨own, -⟩ <;>
        simp [own, Event.countedAt?]
    · rw [List.count_eq_zero_of_not_mem member]
      exact Nat.zero_le 1
  have each : ∀ call ∈ idleCalls, ∃ now, reads call now ∧ ∃ state,
      Passes (Lockout.afterFailure services.lockoutOptions) account.lockout final.countedFailures
        state ∧ state.afterFailure services.lockoutOptions now = state := by
    intro call member
    simp only [idleCalls, List.mem_filter, List.mem_range, decide_eq_true_eq] at member
    rcases ended call member.1 with ⟨user, now, own⟩ | ⟨-, now, allowed, past, isPast, unchanged⟩
    · have occurs := count_countedFailures final call
      rw [own, List.count_eq_zero_of_not_mem member.2] at occurs
      simp [Event.countedAt?] at occurs
    · exact ⟨now, allowed, _, Passes.of_prefix isPast, unchanged⟩
  choose! reading allowed passes using each
  let idle := idleCalls.map fun call => (call, reading call)
  have idleAnywhere : ∀ entry ∈ idle, ∃ state,
      Passes (Lockout.afterFailure services.lockoutOptions) account.lockout final.countedFailures
        state ∧ state.afterFailure services.lockoutOptions entry.2 = state := by
    intro entry member
    obtain ⟨call, callMember, rfl⟩ := List.mem_map.mp member
    exact passes call callMember
  obtain ⟨order, permutes, same⟩ := Passes.insertAll idleAnywhere
  refine ⟨order, ?_, ?_, same⟩
  · have names : (order.map (·.1)).Perm (idleCalls ++ counted) := by
      simpa [idle, Function.comp_def, counted] using permutes.map (·.1)
    refine names.trans ((List.perm_ext_iff_of_nodup ?_ List.nodup_range).mpr ?_)
    · refine List.nodup_append.mpr ⟨List.nodup_range.filter _, once, ?_⟩
      rintro call inIdle _ failed rfl
      simp [idleCalls, failed] at inIdle
    · intro call
      simp only [List.mem_append, idleCalls, List.mem_filter, List.mem_range, decide_eq_true_eq]
      constructor
      · rintro (⟨below, -⟩ | failed)
        · exact below
        · obtain ⟨failure, failureMember, rfl⟩ := List.mem_map.mp failed
          exact inRange _ _ (known failure failureMember)
      · intro below
        by_cases failed : call ∈ counted
        · exact .inr failed
        · exact .inl ⟨below, failed⟩
  · intro entry member
    rcases List.mem_append.mp (permutes.subset member) with inIdle | failed
    · obtain ⟨call, callMember, rfl⟩ := List.mem_map.mp inIdle
      exact allowed call callMember
    · exact known entry failed

/-- Every login has counted its failure or had none to count, and the row shows the counted ones. -/
theorem loggingIn_ended (ids : Table.Keyed User.id start.store.db.users)
    (addresses : Table.Keyed (User.address services.lower) start.store.db.users)
    (silent : start.journal = []) (member : account ∈ start.store.db.users)
    (wrong : ∀ login ∈ logins, WrongPassword services account login)
    (admitted : (loggingIn services logins start).Admitted CountsFresh schedule)
    (ended : ∀ call < logins.length,
      (((loggingIn services logins start).run schedule).outcome? call).isSome) :
    Counting services start account (ReadIn logins schedule)
        ((loggingIn services logins start).run schedule).shared ∧
      ∀ call < logins.length, Ended services account (ReadIn logins schedule) call
        ((loggingIn services logins start).run schedule).shared := by
  have beginning : Counting services start account (ReadIn logins schedule) start := by
    have none : start.countedFailures = [] := by simp [Shared.countedFailures, silent]
    refine ⟨rfl, ?_, by simp [none]⟩
    intro row rowMember same
    rw [ids.eq_of_key rowMember member same, none, serially_nil]
  have admittedReads : (loggingIn services logins start).Admitted
      (ReadsFresh (ReadIn logins schedule)) schedule := by
    refine admitted.of_schedule ?_
    intro shared call input events below scheduled fresh
    have inRange : call < logins.length := by simpa [loggingIn] using below
    exact ⟨fresh, inRange, input, scheduled, rfl⟩
  have verified : (loggingIn services logins start).Verified (ReadsFresh (ReadIn logins schedule))
      (Counts services start account (ReadIn logins schedule))
      fun call _ => Ended services account (ReadIn logins schedule) call := by
    refine Pool.verified_of_wp Counts.refl ?_
    intro call program found
    simp only [loggingIn, List.getElem?_map, Option.map_eq_some_iff] at found
    obtain ⟨login, requested, rfl⟩ := found
    exact PasswordLogin.ends addresses member (wrong login (List.mem_of_getElem? requested))
      beginning (by simp [Shared.eventsOf, silent])
  obtain ⟨counts, finished⟩ := Pool.run_wp Counts.refl Counts.trans verified admittedReads
  refine ⟨counts.1 beginning, ?_⟩
  intro call below
  obtain ⟨outcome, atEnd⟩ := Option.isSome_iff_exists.mp (ended call below)
  obtain ⟨earlier, since, untouched, endedThen⟩ := finished.outcome atEnd
  exact endedThen.later since untouched.eventsOf

/-- Failures add up in every interleaving in which each save finds its row fresh. -/
theorem failuresCounted_of_fresh (ids : Table.Keyed User.id start.store.db.users)
    (addresses : Table.Keyed (User.address services.lower) start.store.db.users)
    (silent : start.journal = [])
    (member : account ∈ start.store.db.users)
    (wrong : ∀ login ∈ logins, WrongPassword services account login)
    (admitted : (loggingIn services logins start).Admitted CountsFresh schedule)
    (ended : ∀ call < logins.length,
      (((loggingIn services logins start).run schedule).outcome? call).isSome) :
    FailuresCounted services logins schedule start account
      ((loggingIn services logins start).run schedule).shared := by
  obtain ⟨counting, allEnded⟩ := loggingIn_ended ids addresses silent member wrong admitted ended
  generalize (loggingIn services logins start).run schedule = final at counting allEnded
  obtain ⟨order, names, allowed, same⟩ := exists_order allEnded counting.known fun _ _ => And.left
  have has : HasLockout start.store.db.users account
      (serially (Lockout.afterFailure services.lockoutOptions) account.lockout order)
      final.shared := by
    refine ⟨counting.users, ?_⟩
    rw [same]
    exact counting.lockout
  constructor
  case serial =>
    let named := order.map fun entry => (logins.getD entry.1 default, entry.2)
    have login : ∀ entry ∈ order, logins[entry.1]? = some (logins.getD entry.1 default) := by
      intro entry entryMember
      have below := (allowed entry entryMember).1
      simp [List.getD_eq_getElem?_getD, List.getElem?_eq_getElem below]
    have allWrong : ∀ entry ∈ named, WrongPassword services account entry.1 := by
      intro entry entryMember
      obtain ⟨old, oldMember, rfl⟩ := List.mem_map.mp entryMember
      exact wrong _ (List.mem_of_getElem? (login old oldMember))
    have atStart : HasLockout start.store.db.users account account.lockout start := by
      refine ⟨rfl, ?_⟩
      intro row rowMember sameId
      rw [ids.eq_of_key rowMember member sameId]
    obtain ⟨history, serialFinal, runs, ops, completes, hasSerial⟩ :=
      exists_serial addresses member atStart named allWrong
    have renamed : serially (Lockout.afterFailure services.lockoutOptions) account.lockout named =
        serially (Lockout.afterFailure services.lockoutOptions) account.lockout order :=
      serially_map (logins.getD · default) order
    rw [renamed] at hasSerial
    refine ⟨_, history, serialFinal, ⟨runs, ?_, ?_⟩, has, hasSerial⟩
    · have requested : (named.map (·.1)).Perm logins := by
        have renamed := names.map (logins.getD · default)
        have all : (List.range logins.length).map (logins.getD · default) = logins := by
          refine List.ext_getElem (by simp) ?_
          intro position _ below
          simp [List.getD_eq_getElem?_getD, List.getElem?_eq_getElem below]
        rw [all, List.map_map] at renamed
        simpa [named, Function.comp_def] using renamed
      rw [ops]
      exact requested
    · intro position record found
      obtain ⟨entry, entryMember, op, completed⟩ := completes position record found
      obtain ⟨old, oldMember, rfl⟩ := List.mem_map.mp entryMember
      obtain ⟨-, input, scheduled, now⟩ := allowed old oldMember
      refine ⟨old.1, input, ?_, scheduled, ?_⟩
      · rw [op]
        exact login old oldMember
      · rw [now]
        exact completed
  case locked =>
    intro enabled fresh some length
    have long : order.length = logins.length := by simpa using names.length_eq
    have nonempty : order ≠ [] := by
      intro empty
      rw [empty, List.length_nil] at long
      omega
    have fills : 0 + order.length = services.lockoutOptions.maxFailedAttempts := by omega
    obtain ⟨entry, entryMember, locks⟩ := Lockout.serially_fresh enabled nonempty fills
    obtain ⟨-, input, scheduled, now⟩ := allowed entry entryMember
    refine ⟨entry.1, input, scheduled, ?_⟩
    rw [now, ← locks, ← fresh]
    exact has

end Concurrent

/-- Three failures lock an account. -/
def lockoutServices : Services := { Services.sample with lockoutOptions := ⟨true, 3, 15⟩ }

/-- An account without failures. -/
def freshAccount : User where
  id := 1
  email := "ada@example.test"
  emailVerified := true
  passwordHash := some "s$correct"
  securityStamp := 7

def accountWorld : World where
  db := { users := [freshAccount] }
  supply := 2

def wrongLogin : PasswordLogin := ⟨{}, "ada@example.test", "wrong"⟩

/-- Three logins with a wrong password. -/
def threeWrong : LoginPool :=
  loggingIn lockoutServices (List.replicate 3 wrongLogin) (Shared.initial accountWorld ⟨0, false⟩)

/-- The second login begins once the first has saved its failure, and ends before the first does. -/
def savedInTurn : List (ℕ × Input) :=
  List.replicate 4 (0, ⟨10, false⟩) ++ List.replicate 7 (1, ⟨11, false⟩) ++
    List.replicate 3 (0, ⟨12, false⟩) ++ List.replicate 10 (2, ⟨13, false⟩)

/-- All three have read the account before one of them saves. -/
def readTogether : List (ℕ × Input) :=
  [0, 1, 2].flatMap (fun call => List.replicate 3 (call, ⟨10, false⟩)) ++
    [0, 1, 2].flatMap (fun call => List.replicate 4 (call, ⟨11, false⟩))

theorem wrongPassword_sample :
    ∀ login ∈ List.replicate 3 wrongLogin, WrongPassword lockoutServices freshAccount login := by
  intro login member
  rw [List.eq_of_mem_replicate member]
  exact ⟨by decide, by decide⟩

set_option maxRecDepth 40000 in
theorem failuresCounted_of_fresh_sample :
    (threeWrong.run savedInTurn).shared.store.db.users.map User.lockout = [⟨3, some 28⟩] ∧
      FailuresCounted lockoutServices (List.replicate 3 wrongLogin) savedInTurn
        (Shared.initial accountWorld ⟨0, false⟩) freshAccount (threeWrong.run savedInTurn).shared :=
  ⟨by decide, failuresCounted_of_fresh (by decide) (by decide) rfl (by decide) wrongPassword_sample
    (Pool.admitted_of_admitted? (by decide)) (by decide)⟩

set_option maxRecDepth 40000 in
/-- Three overlapping failures count as one, and do not lock the account. -/
theorem unlocked_when_read_together :
    (∀ call < 3, ((threeWrong.run readTogether).outcome? call).isSome) ∧
      (threeWrong.run readTogether).shared.store.db.users.map User.lockout = [⟨1, none⟩] ∧
      ¬ FailuresCounted lockoutServices (List.replicate 3 wrongLogin) readTogether
        (Shared.initial accountWorld ⟨0, false⟩) freshAccount
        (threeWrong.run readTogether).shared := by
  have left : (threeWrong.run readTogether).shared.store.db.users.map
      (fun row => (row.id, row.lockout)) = [(1, ⟨1, none⟩)] := by
    decide
  refine ⟨by decide, by decide, ?_⟩
  intro counted
  obtain ⟨call, input, -, has⟩ := counted.locked rfl rfl (by decide) rfl
  have present : (1, ⟨1, none⟩) ∈ (threeWrong.run readTogether).shared.store.db.users.map
      (fun row => (row.id, row.lockout)) := by
    rw [left]
    exact List.mem_singleton_self _
  obtain ⟨row, member, columns⟩ := List.mem_map.mp present
  obtain ⟨id, lockout⟩ := Prod.mk.inj columns
  have locked := has.lockout row member id
  rw [lockout] at locked
  cases locked

end AuthStartpack
