import AuthStartpack.Data.Database
import AuthStartpack.Program.Logic

/-!
Owns the actions the services are written in: programs over the world, which is
the database, the stream of fresh values and the mail queue. Every statement
that reaches the database is one indivisible step (READ COMMITTED), and so are
the clock reading and the drawing of a fresh value.

The events are a journal of what steps have done, kept for the statements about
runs. No action reads them.
-/

namespace AuthStartpack

/-- What the environment contributes to a step: the clock, and whether the database fails
transiently at it. -/
structure Input where
  now : Instant
  transient : Bool := false
deriving DecidableEq, Repr

structure EmailMessage where
  recipient : String
  subject : String
  template : String
  values : List (String × String)
deriving DecidableEq, Repr

/-- The entries of `HybridCache`: those of each process, and those of the second level that all
share. The value of an entry is a public key, or `none` for the empty array. -/
structure Caches where
  inProcess : List (ℕ × String × Option String) := []
  shared : List (String × Option String) := []
deriving DecidableEq, Repr

/-- `supply` numbers the fresh values (`Guid.CreateVersion7`, random bytes) in the order drawn. -/
structure World where
  db : Db
  supply : ℕ := 0
  outbox : List EmailMessage := []
  caches : Caches := {}
deriving DecidableEq, Repr

/-- The operations that consume a verification token. -/
inductive TokenConsumer
  | mfaTicket
  | emailVerification
  | passwordReset
  | passkeyRegistration (userId : Guid)
  | passkeyAuthentication
  | socialState
deriving DecidableEq, Repr

/-- What a social callback read before it added a user: the user that the identity is linked to,
and the address it asked for, with whether nobody had it. -/
structure SocialLookups where
  linked : Option Guid
  asked : Option (String × Bool)
deriving DecidableEq, Repr

inductive Event
  /-- `SaveChangesAsync` failed transiently. -/
  | saveFailed
  /-- A commit failed transiently; the attempt had read this clock. -/
  | commitFailed (attemptedAt : Instant)
  /-- A commit revoked the session of a replayed token at this reading. -/
  | reuseCommitted (revokedAt : Instant)
  /-- A commit marked this refresh token, as the rotation had read it, as used. -/
  | refreshTokenSpent (token : RefreshToken)
  | verificationTokenConsumed (token : VerificationToken) (consumer : TokenConsumer)
  /-- A save replaced the secret of this credential, as read here. -/
  | totpSecretReplaced (credential : TotpCredential)
  /-- A save confirmed the credential with a code that its secret, as read here, has at this
  step. -/
  | totpConfirmed (credential : TotpCredential) (code : String) (timeStep : ℤ)
  /-- An update claimed this time step of the credential. -/
  | totpVerified (credentialId : Guid) (timeStep : ℤ)
  /-- A save marked this recovery code, as read here, as used. -/
  | recoveryCodeUsed (code : RecoveryCode)
  /-- A save counted a failed login of the user, as read here, at this reading. -/
  | loginFailureCounted (user : User) (countedAt : Instant)
  /-- A save accepted an assertion of this passkey, as read here, with this counter. -/
  | passkeyAsserted (credential : PasskeyCredential) (signCount : ℕ)
  /-- A save replaced the hash of the accepted password of the user, as read here. -/
  | passwordRehashed (user : User)
  /-- A save was to add this user with this linked account, after these lookups. The database may
  have refused it. -/
  | socialSignUp (user : User) (account : Account) (lookups : SocialLookups)
  /-- A save was to add this active key, and to demote that one. The database may have refused
  it. -/
  | signingKeyOffered (demoted : Option SigningKey) (key : SigningKey)
  /-- A save retired these keys, as read here. -/
  | signingKeysRetired (keys : List SigningKey)
  /-- The issuer of an access token has read the clock. -/
  | accessTokenDated
  /-- A payload was signed by the key with this `kid`. -/
  | payloadSigned (keyId : String)
  /-- The hash of a password that is to be stored was computed. -/
  | passwordHashed
  /-- A save added this user, with the role of every user. -/
  | userRegistered (user : User)
  /-- A save added this verification token. -/
  | verificationTokenIssued (token : VerificationToken)
  /-- This message was handed to the mail queue. -/
  | emailQueued (message : EmailMessage)
  /-- A save removed this linked account. The answer is what the check before it had found: another
  way to sign in. -/
  | accountRemoved (account : Account) (hasAlternative : Bool)
  /-- A statement removed this passkey. -/
  | passkeyRemoved (credential : PasskeyCredential)
deriving DecidableEq, Repr

abbrev State := Shared Input World Event

abbrev Action := Program Input World Event AppException

namespace Shared

/-- The state before any call has acted. -/
def initial (world : World) (last : Input) : State where
  store := world
  journal := []
  last := last

/-- The state after a step that replaced the database and reported nothing. -/
def wrote (state : State) (input : Input) (db : Db) : State :=
  { state with store := { state.store with db }, last := input }

/-- The state after a step that drew a fresh value. -/
def drew (state : State) (input : Input) : State :=
  { state with store := { state.store with supply := state.store.supply + 1 }, last := input }

section Simp

variable (state : State) (call : ℕ) (input : Input) (db : Db)

@[simp]
theorem wrote_store : (state.wrote input db).store = { state.store with db } := rfl

@[simp]
theorem wrote_journal : (state.wrote input db).journal = state.journal := rfl

@[simp]
theorem wrote_last : (state.wrote input db).last = input := rfl

@[simp]
theorem drew_store :
    (state.drew input).store = { state.store with supply := state.store.supply + 1 } := rfl

@[simp]
theorem drew_journal : (state.drew input).journal = state.journal := rfl

@[simp]
theorem drew_last : (state.drew input).last = input := rfl

theorem advance_wrote :
    state.advance call input ({ state.store with db }, []) = state.wrote input db := by
  simp [advance, wrote]

theorem advance_drew :
    state.advance call input ({ state.store with supply := state.store.supply + 1 }, []) =
      state.drew input := by
  simp [advance, drew]

end Simp

end Shared

/-- What one run of a retried delegate comes to: a result, or a transient failure with what the
`DbContext` has kept in memory. -/
inductive Attempt (τ α : Type)
  | completed (result : α)
  | failed (tracked : τ)

namespace Action

variable {α β τ : Type}

/-! ### Primitive actions -/

def utcNow : Action Instant :=
  Program.atomically fun input world => (.ok input.now, world, [])

/-- The next fresh value. -/
def draw : Action ℕ :=
  Program.atomically
    fun _ world => (.ok world.supply, { world with supply := world.supply + 1 }, [])

/-- One SELECT. Transient failures are those of saves and commits; that a SELECT fails is left
out. -/
def query (read : Db → α) : Action α :=
  Program.atomically fun _ world => (.ok (read world.db), world, [])

/-- One SELECT whose result the client refuses in some cases. -/
def queryOrThrow (read : Db → Except AppException α) : Action α :=
  Program.atomically fun _ world => (read world.db, world, [])

/-- `SingleAsync` on the rows read. -/
def single : List α → Except AppException α
  | [] => .error (.invalidOperation "Sequence contains no elements.")
  | [row] => .ok row
  | _ => .error (.invalidOperation "Sequence contains more than one element.")

/-- `SingleOrDefaultAsync` on the rows read. -/
def singleOrDefault : List α → Except AppException (Option α)
  | [] => .ok none
  | [row] => .ok (some row)
  | _ => .error (.invalidOperation "Sequence contains more than one element.")

theorem single_eq_ok {rows : List α} {row : α} : single rows = .ok row ↔ rows = [row] := by
  match rows with
  | [] => simp [single]
  | [other] => simp [single]
  | _ :: _ :: _ => simp [single]

theorem singleOrDefault_eq_some {rows : List α} {row : α}
    (found : singleOrDefault rows = .ok (some row)) : rows = [row] := by
  unfold singleOrDefault at found
  split at found <;> cases found
  rfl

/-- The row that a query for one row by `pred` returned. -/
theorem mem_of_single {rows : List α} {pred : α → Bool} {row : α}
    (found : single (rows.filter pred) = .ok row) : row ∈ rows ∧ pred row = true := by
  have member : row ∈ rows.filter pred := by simp [single_eq_ok.mp found]
  exact List.mem_filter.mp member

/-- The row that a query for at most one row returned. -/
theorem mem_of_singleOrDefault_rows {rows : List α} {row : α}
    (found : singleOrDefault rows = .ok (some row)) : row ∈ rows := by
  match rows with
  | [] => cases found
  | [other] =>
      cases found
      exact List.mem_cons_self
  | _ :: _ :: _ => cases found

/-- The row that a query for at most one row by `pred` returned. -/
theorem mem_of_singleOrDefault {rows : List α} {pred : α → Bool} {row : α}
    (found : singleOrDefault (rows.filter pred) = .ok (some row)) : row ∈ rows ∧ pred row = true :=
  List.mem_filter.mp (mem_of_singleOrDefault_rows found)

/-- What `SingleAsync` and `SingleOrDefaultAsync` throw. -/
def InvalidOperation (exception : AppException) : Prop :=
  ∃ message, exception = .invalidOperation message

theorem single_error {rows : List α} {exception : AppException}
    (refused : single rows = .error exception) : InvalidOperation exception := by
  unfold single at refused
  split at refused <;> cases refused <;> exact ⟨_, rfl⟩

/-- The exceptions that a run of a retried delegate ends with. -/
inductive Thrown (exception : AppException) : Prop
  | invalidOperation (refused : InvalidOperation exception)
  | statement (refused : StatementError exception)

/-- The execution strategy gives up by another exception. -/
theorem Thrown.ne_retryLimitExceeded {exception : AppException} (thrown : Thrown exception) :
    exception ≠ .retryLimitExceeded := by
  rintro rfl
  cases thrown with
  | invalidOperation refused =>
      obtain ⟨message, impossible⟩ := refused
      cases impossible
  | statement refused => cases refused

/-- One bulk statement (`ExecuteUpdateAsync`, `ExecuteDeleteAsync`) with the number of rows it
affects. -/
def execute (count : Db → ℕ) (write : Db → Db) (events : Db → List Event) : Action ℕ :=
  Program.atomically fun _ world =>
    (.ok (count world.db), { world with db := write world.db }, events world.db)

/-- `SaveChangesAsync` outside a transaction of the caller: all statements or none. Transient
failures are retried inside the call. -/
def saveChanges (changes : Instant → Db → Except AppException Db)
    (events : Db → List Event := fun _ => []) : Action Unit :=
  Program.atomically fun input world =>
    match changes input.now world.db with
    | .ok db => (.ok (), { world with db }, events world.db)
    | .error exception => (.error exception, world, [])

/-- `SaveChangesAsync` outside a transaction of the caller, reported also when it is refused. -/
def attemptChanges (changes : Instant → Db → Except AppException Db) (events : List Event) :
    Action Unit :=
  Program.atomically fun input world =>
    match changes input.now world.db with
    | .ok db => (.ok (), { world with db }, events)
    | .error exception => (.error exception, world, events)

/-- `SaveChangesAsync` inside a transaction of the caller. The statements take effect at the
commit, with the timestamp of the save; `none` is a transient failure. -/
def stageChanges : Action (Option Instant) :=
  Program.atomically fun input world =>
    if input.transient then (.ok none, world, [.saveFailed]) else (.ok (some input.now), world, [])

/-- `CommitAsync`. It publishes the staged statements; `false` is a transient failure. -/
def commit (changes : Db → Except AppException Db) (attemptedAt : Instant) (events : List Event) :
    Action Bool :=
  Program.atomically fun input world =>
    if input.transient then (.ok false, world, [.commitFailed attemptedAt])
    else
      match changes world.db with
      | .ok db => (.ok true, { world with db }, events)
      | .error exception => (.error exception, world, [])

/-- The clock, with a report that it was read. -/
def utcNowReporting (event : Event) : Action Instant :=
  Program.atomically fun input world => (.ok input.now, world, [event])

/-- A fresh value, with a report that it was drawn. -/
def drawReporting (event : Event) : Action ℕ :=
  Program.atomically fun _ world =>
    (.ok world.supply, { world with supply := world.supply + 1 }, [event])

/-- One access to a level of the cache. -/
def updateCaches (write : Caches → Caches) : Action Unit :=
  Program.atomically fun _ world =>
    (.ok (), { world with caches := write world.caches }, [])

def queueEmail (message : EmailMessage) : Action Unit :=
  Program.atomically fun _ world =>
    (.ok (), { world with outbox := world.outbox ++ [message] }, [])

/-- A message, with a report that it was queued. -/
def queueEmailReporting (message : EmailMessage) : Action Unit :=
  Program.atomically fun _ world =>
    (.ok (), { world with outbox := world.outbox ++ [message] }, [.emailQueued message])

/-- `value ?? throw exception` -/
def orThrow (exception : AppException) : Option α → Action α
  | some value => pure value
  | none => throw exception

/-- The retrying execution strategy: the first run and up to `retries` further ones. -/
def executionStrategy (delegate : τ → Action (Attempt τ α)) : ℕ → τ → Action α
  | 0, tracked => do
      match ← delegate tracked with
      | .completed result => return result
      | .failed _ => throw .retryLimitExceeded
  | retries + 1, tracked => do
      match ← delegate tracked with
      | .completed result => return result
      | .failed kept => executionStrategy delegate retries kept

/-! ### Their weakest preconditions -/

section Rules

variable {law : Law Input World Event} {call : ℕ} {state : State}

theorem wp_utcNow {post : Except AppException Instant → State → Prop} :
    utcNow.wp law call post state ↔
      ∀ current, law.rely call state current → ∀ input, law.admits current call input [] →
        law.guarantee call current (current.observed input) ∧
          post (.ok input.now) (current.observed input) := by
  simp only [utcNow, Program.wp_atomically, Shared.advance_silent]

theorem wp_draw {post : Except AppException ℕ → State → Prop} :
    draw.wp law call post state ↔
      ∀ current, law.rely call state current → ∀ input, law.admits current call input [] →
        law.guarantee call current (current.drew input) ∧
          post (.ok current.store.supply) (current.drew input) := by
  simp only [draw, Program.wp_atomically, Shared.advance_drew]

theorem wp_queryOrThrow {read : Db → Except AppException α}
    {post : Except AppException α → State → Prop} :
    (queryOrThrow read).wp law call post state ↔
      ∀ current, law.rely call state current → ∀ input, law.admits current call input [] →
        law.guarantee call current (current.observed input) ∧
          post (read current.store.db) (current.observed input) := by
  simp only [queryOrThrow, Program.wp_atomically, Shared.advance_silent]

/-- A run of the delegate that completes ends the call, and one that fails keeps `inv`. -/
def retrying (inv : τ → State → Prop) (post : Except AppException α → State → Prop) :
    Except AppException (Attempt τ α) → State → Prop
  | .ok (.completed result), later => post (.ok result) later
  | .ok (.failed kept), later => inv kept later
  | .error exception, later => post (.error exception) later

/-- Retried delegates, from what every failed run leaves tracked. -/
theorem wp_executionStrategy {delegate : τ → Action (Attempt τ α)} {inv : τ → State → Prop}
    {post : Except AppException α → State → Prop}
    (each : ∀ tracked state, inv tracked state →
      (delegate tracked).wp law call (retrying inv post) state)
    (exhausted : ∀ tracked state, inv tracked state → post (.error .retryLimitExceeded) state)
    {retries : ℕ} {tracked : τ} (starts : inv tracked state) :
    (executionStrategy delegate retries tracked).wp law call post state := by
  induction retries generalizing tracked state with
  | zero =>
      simp only [executionStrategy, Program.wp_bind]
      refine Program.wp_mono (each tracked state starts) ?_
      intro outcome later reached
      cases outcome with
      | error exception => exact reached
      | ok ran =>
          cases ran with
          | completed result => exact reached
          | failed kept => exact exhausted kept later reached
  | succ retries inductionHypothesis =>
      simp only [executionStrategy, Program.wp_bind]
      refine Program.wp_mono (each tracked state starts) ?_
      intro outcome later reached
      cases outcome with
      | error exception => exact reached
      | ok ran =>
          cases ran with
          | completed result => exact reached
          | failed kept => exact inductionHypothesis reached

end Rules

end Action

end AuthStartpack
