import AuthStartpack.Data.Entities
import AuthStartpack.Table.Rows

/-!
Owns the database of the auth schema: its tables, the constraints an INSERT is
checked against, and the statements that `SaveChangesAsync` sends for tracked
entities. An INSERT stamps both audit timestamps, an UPDATE goes by primary key,
writes only the columns that differ from the tracked original and stamps
`UpdatedAt`; a DELETE cascades along the foreign keys.

The bulk statements of the services (`ExecuteUpdateAsync`, `ExecuteDeleteAsync`)
are written where they are issued. They bypass the timestamps.
-/

namespace AuthStartpack

inductive AppException
  | invalidCredentials
  | invalidToken
  | tokenReuseDetected (sessionId : Guid)
  | resourceNotFound (resource : String)
  | conflict (code message : String)
  | forbiddenOperation
  | cryptographic
  | invalidOperation (message : String)
  | dbUpdate (constraintName : String)
  | dbUpdateConcurrency
  | valueTooLong (maxLength : ℕ)
  | characterNotInRepertoire
  | unsupportedProvider
  | httpRequest
  | retryLimitExceeded
  | accountLocked (lockoutEndsAt : Instant)
  | emailAlreadyRegistered
  | operationCanceled
  | badHttpRequest (statusCode : ℕ)
deriving DecidableEq, Repr

structure Db where
  users : List User := []
  sessions : List Session := []
  refreshTokens : List RefreshToken := []
  accounts : List Account := []
  verificationTokens : List VerificationToken := []
  totpCredentials : List TotpCredential := []
  recoveryCodes : List RecoveryCode := []
  passkeyCredentials : List PasskeyCredential := []
  apiKeys : List ApiKey := []
  roles : List Role := []
  userRoles : List UserRole := []
  auditLogEntries : List AuditLogEntry := []
  signingKeys : List SigningKey := []
deriving DecidableEq, Repr

/-- The `citext` comparison of email addresses, by the `lower()` of the database's locale. -/
def sameEmail (lower : String → String) (left right : String) : Bool := lower left = lower right

/-- `char.IsWhiteSpace`. -/
def isWhiteSpace (character : Char) : Bool :=
  let code := character.toNat
  (9 ≤ code && code ≤ 13) || (0x2000 ≤ code && code ≤ 0x200A) ||
    [0x20, 0x85, 0xA0, 0x1680, 0x2028, 0x2029, 0x202F, 0x205F, 0x3000].contains code

/-- `string.IsNullOrWhiteSpace`. -/
def isNullOrWhiteSpace (text : Option String) : Bool :=
  text.all (·.toList.all isWhiteSpace)

/-- `string.Trim()`. -/
def trim (text : String) : String :=
  let leading := text.toList.dropWhile isWhiteSpace
  String.ofList (leading.reverse.dropWhile isWhiteSpace).reverse

theorem trim_eq_self {text : String}
    (dark : ∀ character ∈ text.toList, isWhiteSpace character = false) :
    trim text = text := by
  have stays :
      ∀ characters : List Char, (∀ character ∈ characters, isWhiteSpace character = false) →
      characters.dropWhile isWhiteSpace = characters := by
    intro characters all
    cases characters with
    | nil => rfl
    | cons character rest =>
        have first := all character List.mem_cons_self
        rw [List.dropWhile_cons, first]
        rfl
  have reversed : ∀ character ∈ text.toList.reverse, isWhiteSpace character = false :=
    fun character member => dark character (List.mem_reverse.mp member)
  simp only [trim, stays _ dark, stays _ reversed, List.reverse_reverse, String.ofList_toList]

/-! ### Statements of one row -/

/-- An INSERT: the first violated constraint, if any, is reported by its name. -/
def insertRow {ρ : Type} (constraints : List (String × Bool)) (rows : List ρ) (row : ρ) :
    Except AppException (List ρ) :=
  match constraints.find? fun constraint => !constraint.2 with
  | some (name, _) => .error (.dbUpdate name)
  | none => .ok (rows ++ [row])

/-- Text that the database stores: it has no U+0000. -/
def storable (text : String) : Bool := text.toList.all fun character => character.toNat ≠ 0

/-- A value for a `character varying` column. -/
def checkText (maxLength : ℕ) (value : Option String) : Except AppException Unit :=
  if value.all storable then
    if value.all (·.length ≤ maxLength) then .ok () else .error (.valueTooLong maxLength)
  else .error .characterNotInRepertoire

/-- An UPDATE by primary key, which must affect a row. -/
def updateRow {ρ : Type} (hit : ρ → Bool) (write : ρ → ρ) (rows : List ρ) :
    Except AppException (List ρ) :=
  if rows.any hit then .ok (Table.updateWhere hit write rows) else .error .dbUpdateConcurrency

/-- A column of the stored row after an UPDATE of a tracked entity. -/
def changed {α : Type} [DecidableEq α] (original current stored : α) : α :=
  if current = original then stored else current

@[simp]
theorem changed_self {α : Type} [DecidableEq α] (original stored : α) :
    changed original original stored = stored := if_pos rfl

@[simp]
theorem changed_stored {α : Type} [DecidableEq α] (stored current : α) :
    changed stored current stored = current := by
  unfold changed
  split
  · exact Eq.symm ‹_›
  · rfl

/-- Failures of a statement abort the statements after it. -/
theorem bind_eq_ok {ε α β : Type} {first : Except ε α} {rest : α → Except ε β} {result : β} :
    (first >>= rest) = .ok result ↔ ∃ value, first = .ok value ∧ rest value = .ok result := by
  cases first with
  | error exception => simp [bind, Except.bind]
  | ok value => simp [bind, Except.bind]

theorem pure_eq_ok {ε α : Type} {value result : α} :
    (pure value : Except ε α) = .ok result ↔ result = value := by
  simp [pure, Except.pure, eq_comm]

theorem bind_eq_error {ε α β : Type} {first : Except ε α} {rest : α → Except ε β}
    {exception : ε} :
    (first >>= rest) = .error exception ↔
      first = .error exception ∨ ∃ value, first = .ok value ∧ rest value = .error exception := by
  cases first with
  | error thrown => simp [bind, Except.bind]
  | ok value => simp [bind, Except.bind]

theorem pure_ne_error {ε α : Type} {value : α} {exception : ε} :
    ¬ (pure value : Except ε α) = .error exception := nofun

/-- What every statement keeps, a sequence of statements keeps. -/
theorem foldlM_relates {ε α β : Type} {relation : β → β → Prop}
    (refl : ∀ state, relation state state)
    (trans : ∀ {first second third}, relation first second → relation second third →
      relation first third)
    {statement : β → α → Except ε β} {entries : List α}
    (each : ∀ entry ∈ entries, ∀ before after, statement before entry = .ok after →
      relation before after)
    {before after : β} (succeeded : entries.foldlM statement before = .ok after) :
    relation before after := by
  induction entries generalizing before with
  | nil =>
      cases succeeded
      exact refl _
  | cons head tail inductionHypothesis =>
      rw [List.foldlM_cons] at succeeded
      obtain ⟨middle, first, rest⟩ := bind_eq_ok.mp succeeded
      refine trans (each head List.mem_cons_self before middle first) ?_
      exact inductionHypothesis
        (fun entry member => each entry (List.mem_cons_of_mem _ member)) rest

theorem insertRow_eq_ok {ρ : Type} {constraints : List (String × Bool)} {rows after : List ρ}
    {row : ρ} :
    insertRow constraints rows row = .ok after ↔
      (∀ constraint ∈ constraints, constraint.2 = true) ∧ after = rows ++ [row] := by
  unfold insertRow
  split
  case h_1 name held found =>
    have member := List.mem_of_find?_eq_some found
    have violated := List.find?_some found
    simp only [Bool.not_eq_true'] at violated
    refine ⟨(nomatch ·), fun ⟨all, _⟩ => ?_⟩
    have satisfied := all _ member
    simp [violated] at satisfied
  case h_2 found =>
    have all := List.find?_eq_none.mp found
    simp only [Bool.not_eq_true', Bool.not_eq_false] at all
    simp only [Except.ok.injEq]
    exact ⟨fun equal => ⟨all, equal.symm⟩, fun ⟨_, equal⟩ => equal.symm⟩

theorem updateRow_eq_ok {ρ : Type} {hit : ρ → Bool} {write : ρ → ρ} {rows after : List ρ} :
    updateRow hit write rows = .ok after ↔
      rows.any hit = true ∧ after = Table.updateWhere hit write rows := by
  unfold updateRow
  split
  case isTrue found => simp only [found, true_and, Except.ok.injEq, eq_comm]
  case isFalse missing => simp only [missing, false_and, reduceCtorEq]

theorem checkText_eq_ok {maxLength : ℕ} {value : Option String} :
    checkText maxLength value = .ok () ↔
      ∀ text ∈ value, storable text = true ∧ text.length ≤ maxLength := by
  unfold checkText
  cases value with
  | none => simp
  | some text => cases stored : storable text <;> simp [stored]

theorem checkText_error {maxLength : ℕ} {value : Option String} {exception : AppException}
    (unfit : checkText maxLength value = .error exception) (name : String) :
    exception ≠ .dbUpdate name := by
  rintro rfl
  unfold checkText at unfit
  split at unfit
  · split at unfit <;> cases unfit
  · cases unfit

/-- The exceptions of a statement. -/
inductive StatementError : AppException → Prop
  | constraint (name : String) : StatementError (.dbUpdate name)
  | concurrency : StatementError .dbUpdateConcurrency

theorem insertRow_error {ρ : Type} {constraints : List (String × Bool)} {rows : List ρ} {row : ρ}
    {exception : AppException} (refused : insertRow constraints rows row = .error exception) :
    StatementError exception := by
  unfold insertRow at refused
  split at refused
  · cases refused
    exact .constraint _
  · cases refused

theorem updateRow_error {ρ : Type} {hit : ρ → Bool} {write : ρ → ρ} {rows : List ρ}
    {exception : AppException} (refused : updateRow hit write rows = .error exception) :
    StatementError exception := by
  unfold updateRow at refused
  split at refused
  · cases refused
  · cases refused
    exact .concurrency

/-- An UPDATE that is sent only if the entity is modified. -/
theorem update_eq_ok {ρ α : Type} (unmodified : Prop) [Decidable unmodified] {db after : α}
    {rows : List ρ} {hit : ρ → Bool} {write : ρ → ρ} (put : List ρ → α) (restores : put rows = db) :
    (if unmodified then .ok db else updateRow hit write rows >>= fun rows => pure (put rows)) =
        Except.ok after ↔
      (unmodified ∨ ∃ stored ∈ rows, hit stored = true) ∧
        after = put
          (Table.updateWhere (fun stored => hit stored && !decide unmodified) write rows) := by
  split
  case isTrue same =>
    have untouched : Table.updateWhere (fun stored => hit stored && !decide unmodified) write rows =
        rows := Table.updateWhere_eq_self fun row _ => by simp [same]
    rw [untouched, restores]
    exact ⟨fun equal => ⟨.inl same, (Except.ok.inj equal).symm⟩,
      fun ⟨_, equal⟩ => congrArg Except.ok equal.symm⟩
  case isFalse different =>
    simp only [bind_eq_ok, pure_eq_ok, updateRow_eq_ok, List.any_eq_true, different, false_or,
      decide_false, Bool.not_false, Bool.and_true]
    constructor
    · rintro ⟨_, ⟨found, rfl⟩, equal⟩
      exact ⟨found, equal⟩
    · rintro ⟨found, equal⟩
      exact ⟨_, ⟨found, rfl⟩, equal⟩

/-! ### Tracked entities -/

def User.merge (original current : User) (now : Instant) (stored : User) : User :=
  { stored with
    email := changed original.email current.email stored.email
    emailVerified := changed original.emailVerified current.emailVerified stored.emailVerified
    passwordHash := changed original.passwordHash current.passwordHash stored.passwordHash
    displayName := changed original.displayName current.displayName stored.displayName
    securityStamp := changed original.securityStamp current.securityStamp stored.securityStamp
    failedLoginCount :=
      changed original.failedLoginCount current.failedLoginCount stored.failedLoginCount
    lockoutEndsAt := changed original.lockoutEndsAt current.lockoutEndsAt stored.lockoutEndsAt
    updatedAt := now }

def Session.merge (original current : Session) (now : Instant) (stored : Session) : Session :=
  { stored with
    ipAddress := changed original.ipAddress current.ipAddress stored.ipAddress
    userAgent := changed original.userAgent current.userAgent stored.userAgent
    deviceLabel := changed original.deviceLabel current.deviceLabel stored.deviceLabel
    authenticatedAt :=
      changed original.authenticatedAt current.authenticatedAt stored.authenticatedAt
    authenticationMethods :=
      changed original.authenticationMethods current.authenticationMethods
        stored.authenticationMethods
    securityStamp := changed original.securityStamp current.securityStamp stored.securityStamp
    lastActiveAt := changed original.lastActiveAt current.lastActiveAt stored.lastActiveAt
    absoluteExpiresAt :=
      changed original.absoluteExpiresAt current.absoluteExpiresAt stored.absoluteExpiresAt
    revokedAt := changed original.revokedAt current.revokedAt stored.revokedAt
    revocationReason :=
      changed original.revocationReason current.revocationReason stored.revocationReason
    updatedAt := now }

def RefreshToken.merge (original current : RefreshToken) (now : Instant) (stored : RefreshToken) :
    RefreshToken :=
  { stored with
    tokenHash := changed original.tokenHash current.tokenHash stored.tokenHash
    expiresAt := changed original.expiresAt current.expiresAt stored.expiresAt
    usedAt := changed original.usedAt current.usedAt stored.usedAt
    replacedByTokenId :=
      changed original.replacedByTokenId current.replacedByTokenId stored.replacedByTokenId
    updatedAt := now }

def TotpCredential.merge (original current : TotpCredential) (now : Instant)
    (stored : TotpCredential) : TotpCredential :=
  { stored with
    secretEncrypted :=
      changed original.secretEncrypted current.secretEncrypted stored.secretEncrypted
    confirmedAt := changed original.confirmedAt current.confirmedAt stored.confirmedAt
    lastUsedTimeStep :=
      changed original.lastUsedTimeStep current.lastUsedTimeStep stored.lastUsedTimeStep
    updatedAt := now }

def RecoveryCode.merge (original current : RecoveryCode) (now : Instant) (stored : RecoveryCode) :
    RecoveryCode :=
  { stored with
    codeHash := changed original.codeHash current.codeHash stored.codeHash
    usedAt := changed original.usedAt current.usedAt stored.usedAt
    updatedAt := now }

def PasskeyCredential.merge (original current : PasskeyCredential) (now : Instant)
    (stored : PasskeyCredential) : PasskeyCredential :=
  { stored with
    signCount := changed original.signCount current.signCount stored.signCount
    label := changed original.label current.label stored.label
    lastUsedAt := changed original.lastUsedAt current.lastUsedAt stored.lastUsedAt
    updatedAt := now }

def ApiKey.merge (original current : ApiKey) (now : Instant) (stored : ApiKey) : ApiKey :=
  { stored with
    name := changed original.name current.name stored.name
    scopes := changed original.scopes current.scopes stored.scopes
    expiresAt := changed original.expiresAt current.expiresAt stored.expiresAt
    lastUsedAt := changed original.lastUsedAt current.lastUsedAt stored.lastUsedAt
    revokedAt := changed original.revokedAt current.revokedAt stored.revokedAt
    updatedAt := now }

def SigningKey.merge (original current : SigningKey) (now : Instant) (stored : SigningKey) :
    SigningKey :=
  { stored with
    status := changed original.status current.status stored.status
    retiringAt := changed original.retiringAt current.retiringAt stored.retiringAt
    retiredAt := changed original.retiredAt current.retiredAt stored.retiredAt
    updatedAt := now }

namespace Db

/-! ### What `SaveChangesAsync` sends -/

section Save

variable (now : Instant) (db : Db)

def hasUser (id : Guid) : Bool := db.users.any (·.id = id)

/-- The display name is checked before it. -/
def insertUser (lower : String → String) (row : User) : Except AppException Db :=
  if storable row.email then do
    let users ← insertRow
      [("PK_Users", !db.users.any (·.id = row.id)),
        ("IX_Users_Email", !db.users.any (sameEmail lower ·.email row.email))]
      db.users { row with createdAt := now, updatedAt := now }
    return { db with users }
  else .error .characterNotInRepertoire

def insertSession (row : Session) : Except AppException Db := do
  let sessions ← insertRow
    [("PK_Sessions", !db.sessions.any (·.id = row.id)),
      ("FK_Sessions_Users_UserId", db.hasUser row.userId)]
    db.sessions { row with createdAt := now, updatedAt := now }
  return { db with sessions }

def insertRefreshToken (row : RefreshToken) : Except AppException Db := do
  let refreshTokens ← insertRow
    [("PK_RefreshTokens", !db.refreshTokens.any (·.id = row.id)),
      ("IX_RefreshTokens_TokenHash", !db.refreshTokens.any (·.tokenHash = row.tokenHash)),
      ("FK_RefreshTokens_Sessions_SessionId", db.sessions.any (·.id = row.sessionId))]
    db.refreshTokens { row with createdAt := now, updatedAt := now }
  return { db with refreshTokens }

def insertAccount (row : Account) : Except AppException Db := do
  let accounts ← insertRow
    [("PK_Accounts", !db.accounts.any (·.id = row.id)),
      ("IX_Accounts_Provider_ProviderAccountId",
        !db.accounts.any fun other =>
          other.provider = row.provider && other.providerAccountId = row.providerAccountId),
      ("FK_Accounts_Users_UserId", db.hasUser row.userId)]
    db.accounts { row with createdAt := now, updatedAt := now }
  return { db with accounts }

def insertVerificationToken (row : VerificationToken) : Except AppException Db := do
  let verificationTokens ← insertRow
    [("PK_VerificationTokens", !db.verificationTokens.any (·.id = row.id)),
      ("IX_VerificationTokens_TokenHash",
        !db.verificationTokens.any (·.tokenHash = row.tokenHash)),
      ("FK_VerificationTokens_Users_UserId", row.userId.all db.hasUser)]
    db.verificationTokens { row with createdAt := now, updatedAt := now }
  return { db with verificationTokens }

def insertTotpCredential (row : TotpCredential) : Except AppException Db := do
  let totpCredentials ← insertRow
    [("PK_TotpCredentials", !db.totpCredentials.any (·.id = row.id)),
      ("IX_TotpCredentials_UserId", !db.totpCredentials.any (·.userId = row.userId)),
      ("FK_TotpCredentials_Users_UserId", db.hasUser row.userId)]
    db.totpCredentials { row with createdAt := now, updatedAt := now }
  return { db with totpCredentials }

def insertRecoveryCode (row : RecoveryCode) : Except AppException Db := do
  let recoveryCodes ← insertRow
    [("PK_RecoveryCodes", !db.recoveryCodes.any (·.id = row.id)),
      ("FK_RecoveryCodes_Users_UserId", db.hasUser row.userId)]
    db.recoveryCodes { row with createdAt := now, updatedAt := now }
  return { db with recoveryCodes }

def insertPasskeyCredential (row : PasskeyCredential) : Except AppException Db := do
  let passkeyCredentials ← insertRow
    [("PK_PasskeyCredentials", !db.passkeyCredentials.any (·.id = row.id)),
      ("IX_PasskeyCredentials_CredentialId",
        !db.passkeyCredentials.any (·.credentialId = row.credentialId)),
      ("FK_PasskeyCredentials_Users_UserId", db.hasUser row.userId)]
    db.passkeyCredentials { row with createdAt := now, updatedAt := now }
  return { db with passkeyCredentials }

def insertApiKey (row : ApiKey) : Except AppException Db := do
  let apiKeys ← insertRow
    [("PK_ApiKeys", !db.apiKeys.any (·.id = row.id)),
      ("IX_ApiKeys_KeyPrefix", !db.apiKeys.any (·.keyPrefix = row.keyPrefix)),
      ("FK_ApiKeys_Users_UserId", db.hasUser row.userId)]
    db.apiKeys { row with createdAt := now, updatedAt := now }
  return { db with apiKeys }

def insertUserRole (row : UserRole) : Except AppException Db := do
  let userRoles ← insertRow
    [("PK_UserRoles",
        !db.userRoles.any fun other => other.userId = row.userId && other.roleId = row.roleId),
      ("FK_UserRoles_Users_UserId", db.hasUser row.userId),
      ("FK_UserRoles_Roles_RoleId", db.roles.any (·.id = row.roleId))]
    db.userRoles { row with createdAt := now, updatedAt := now }
  return { db with userRoles }

def deleteAccount (row : Account) : Except AppException Db :=
  if db.accounts.any (·.id = row.id) then
    .ok { db with accounts := Table.deleteWhere (·.id = row.id) db.accounts }
  else .error .dbUpdateConcurrency

def insertAuditLogEntry (row : AuditLogEntry) : Except AppException Db := do
  let auditLogEntries ← insertRow
    [("PK_AuditLogEntries", !db.auditLogEntries.any (·.id = row.id))] db.auditLogEntries row
  return { db with auditLogEntries }

/-- The index on the status is filtered: it has the active keys alone. -/
def insertSigningKey (row : SigningKey) : Except AppException Db := do
  let signingKeys ← insertRow
    [("PK_SigningKeys", !db.signingKeys.any (·.id = row.id)),
      ("IX_SigningKeys_KeyId", !db.signingKeys.any (·.keyId = row.keyId)),
      ("IX_SigningKeys_Status",
        !(row.status = .active && db.signingKeys.any (·.status = .active)))]
    db.signingKeys { row with createdAt := now, updatedAt := now }
  return { db with signingKeys }

def updateUser (original current : User) : Except AppException Db :=
  if current = original then .ok db else do
    let users ← updateRow (·.id = original.id) (original.merge current now) db.users
    return { db with users }

def updateSession (original current : Session) : Except AppException Db :=
  if current = original then .ok db else do
    let sessions ← updateRow (·.id = original.id) (original.merge current now) db.sessions
    return { db with sessions }

def updateRefreshToken (original current : RefreshToken) : Except AppException Db :=
  if current = original then .ok db else do
    let refreshTokens ←
      updateRow (·.id = original.id) (original.merge current now) db.refreshTokens
    return { db with refreshTokens }

def updateTotpCredential (original current : TotpCredential) : Except AppException Db :=
  if current = original then .ok db else do
    let totpCredentials ←
      updateRow (·.id = original.id) (original.merge current now) db.totpCredentials
    return { db with totpCredentials }

def updateRecoveryCode (original current : RecoveryCode) : Except AppException Db :=
  if current = original then .ok db else do
    let recoveryCodes ←
      updateRow (·.id = original.id) (original.merge current now) db.recoveryCodes
    return { db with recoveryCodes }

def updatePasskeyCredential (original current : PasskeyCredential) : Except AppException Db :=
  if current = original then .ok db else do
    let passkeyCredentials ←
      updateRow (·.id = original.id) (original.merge current now) db.passkeyCredentials
    return { db with passkeyCredentials }

def updateApiKey (original current : ApiKey) : Except AppException Db :=
  if current = original then .ok db else do
    let apiKeys ← updateRow (·.id = original.id) (original.merge current now) db.apiKeys
    return { db with apiKeys }

def updateSigningKey (original current : SigningKey) : Except AppException Db :=
  if current = original then .ok db else do
    let signingKeys ← updateRow (·.id = original.id) (original.merge current now) db.signingKeys
    return { db with signingKeys }

end Save

/-! ### What a successful statement has done -/

section Saved

variable {now : Instant} {db after : Db}

theorem insertSession_eq_ok {row : Session} :
    db.insertSession now row = .ok after ↔
      ((∀ other ∈ db.sessions, other.id ≠ row.id) ∧ db.hasUser row.userId = true) ∧
        after = { db with
          sessions := db.sessions ++ [{ row with createdAt := now, updatedAt := now }] } := by
  simp only [insertSession, bind_eq_ok, pure_eq_ok, insertRow_eq_ok]
  simp

theorem insertRefreshToken_eq_ok {row : RefreshToken} :
    db.insertRefreshToken now row = .ok after ↔
      ((∀ other ∈ db.refreshTokens, other.id ≠ row.id) ∧
        (∀ other ∈ db.refreshTokens, other.tokenHash ≠ row.tokenHash) ∧
        ∃ session ∈ db.sessions, session.id = row.sessionId) ∧
        after = { db with
          refreshTokens :=
            db.refreshTokens ++ [{ row with createdAt := now, updatedAt := now }] } := by
  simp only [insertRefreshToken, bind_eq_ok, pure_eq_ok, insertRow_eq_ok]
  simp

theorem updateSession_eq_ok {original current : Session} :
    db.updateSession now original current = .ok after ↔
      (current = original ∨ ∃ stored ∈ db.sessions, stored.id = original.id) ∧
        after = { db with
          sessions := Table.updateWhere
            (fun stored => stored.id = original.id && current ≠ original)
            (original.merge current now) db.sessions } := by
  refine (update_eq_ok (current = original) (fun sessions => { db with sessions }) rfl).trans ?_
  simp

theorem updateRefreshToken_eq_ok {original current : RefreshToken} :
    db.updateRefreshToken now original current = .ok after ↔
      (current = original ∨ ∃ stored ∈ db.refreshTokens, stored.id = original.id) ∧
        after = { db with
          refreshTokens :=
            Table.updateWhere (fun stored => stored.id = original.id && current ≠ original)
              (original.merge current now) db.refreshTokens } := by
  refine (update_eq_ok (current = original)
    (fun refreshTokens => { db with refreshTokens }) rfl).trans ?_
  simp

/-- An UPDATE of a session that exists succeeds. -/
theorem updateSession_succeeds {original current : Session}
    (found : ∃ stored ∈ db.sessions, stored.id = original.id) :
    ∃ sessions, db.updateSession now original current = .ok { db with sessions } ∧
      sessions.map Session.id = db.sessions.map Session.id :=
  ⟨_, updateSession_eq_ok.mpr ⟨.inr found, rfl⟩, Table.map_updateWhere fun _ => rfl⟩

/-- An UPDATE of a refresh token that exists succeeds. -/
theorem updateRefreshToken_succeeds {original current : RefreshToken}
    (found : ∃ stored ∈ db.refreshTokens, stored.id = original.id)
    (sameHash : current.tokenHash = original.tokenHash) :
    ∃ refreshTokens,
      db.updateRefreshToken now original current = .ok { db with refreshTokens } ∧
        refreshTokens.map RefreshToken.id = db.refreshTokens.map RefreshToken.id ∧
        refreshTokens.map RefreshToken.tokenHash = db.refreshTokens.map RefreshToken.tokenHash := by
  refine ⟨_, updateRefreshToken_eq_ok.mpr ⟨.inr found, rfl⟩, Table.map_updateWhere fun _ => rfl,
    Table.map_updateWhere fun row => ?_⟩
  simp [RefreshToken.merge, sameHash]

variable {exception : AppException}

theorem insertRefreshToken_error {row : RefreshToken}
    (refused : db.insertRefreshToken now row = .error exception) : StatementError exception := by
  simp only [insertRefreshToken, bind_eq_error, pure_ne_error, and_false, exists_false,
    or_false] at refused
  exact insertRow_error refused

theorem updateSession_error {original current : Session}
    (refused : db.updateSession now original current = .error exception) :
    StatementError exception := by
  unfold updateSession at refused
  split at refused
  · cases refused
  · simp only [bind_eq_error, pure_ne_error, and_false, exists_false, or_false] at refused
    exact updateRow_error refused

theorem updateRefreshToken_error {original current : RefreshToken}
    (refused : db.updateRefreshToken now original current = .error exception) :
    StatementError exception := by
  unfold updateRefreshToken at refused
  split at refused
  · cases refused
  · simp only [bind_eq_error, pure_ne_error, and_false, exists_false, or_false] at refused
    exact updateRow_error refused

end Saved

/-! ### Statements of other tables -/

section Others

variable {now : Instant} {db after : Db}

theorem updateUser_eq_ok {original current : User} :
    db.updateUser now original current = .ok after ↔
      (current = original ∨ ∃ stored ∈ db.users, stored.id = original.id) ∧
        after = { db with
          users := Table.updateWhere (fun stored => stored.id = original.id && current ≠ original)
            (original.merge current now) db.users } := by
  refine (update_eq_ok (current = original) (fun users => { db with users }) rfl).trans ?_
  simp

theorem updateUser_ok {original current : User}
    (saved : db.updateUser now original current = .ok after) :
    ∃ users, after = { db with users } :=
  ⟨_, (updateUser_eq_ok.mp saved).2⟩

theorem insertUser_eq_ok {lower : String → String} {row : User} :
    db.insertUser now lower row = .ok after ↔
      ((∀ other ∈ db.users, other.id ≠ row.id) ∧
        (∀ other ∈ db.users, sameEmail lower other.email row.email = false) ∧
        storable row.email = true) ∧
        after = { db with
          users := db.users ++ [{ row with createdAt := now, updatedAt := now }] } := by
  unfold insertUser
  split
  case isTrue stored =>
    simp only [bind_eq_ok, pure_eq_ok, insertRow_eq_ok]
    simp [stored]
  case isFalse refused => simp [refused]

/-- What an INSERT of a user is refused for. -/
theorem insertUser_error {lower : String → String} {row : User} {exception : AppException}
    (refused : db.insertUser now lower row = .error exception) :
    (storable row.email = false ∧ exception = .characterNotInRepertoire) ∨
      insertRow
        [("PK_Users", !db.users.any (·.id = row.id)),
          ("IX_Users_Email", !db.users.any (sameEmail lower ·.email row.email))]
        db.users { row with createdAt := now, updatedAt := now } = .error exception := by
  unfold insertUser at refused
  split at refused
  · simp only [bind_eq_error, pure_ne_error, and_false, exists_false, or_false] at refused
    exact .inr refused
  · exact .inl ⟨Bool.eq_false_iff.mpr ‹_›, (Except.error.inj refused).symm⟩

theorem insertUserRole_eq_ok {row : UserRole} :
    db.insertUserRole now row = .ok after ↔
      ((∀ other ∈ db.userRoles, other.userId = row.userId → other.roleId ≠ row.roleId) ∧
        db.hasUser row.userId = true ∧ ∃ role ∈ db.roles, role.id = row.roleId) ∧
        after = { db with
          userRoles := db.userRoles ++ [{ row with createdAt := now, updatedAt := now }] } := by
  simp only [insertUserRole, bind_eq_ok, pure_eq_ok, insertRow_eq_ok]
  simp

theorem insertAccount_eq_ok {row : Account} :
    db.insertAccount now row = .ok after ↔
      ((∀ other ∈ db.accounts, other.id ≠ row.id) ∧
        (∀ other ∈ db.accounts, other.provider = row.provider →
          other.providerAccountId ≠ row.providerAccountId) ∧ db.hasUser row.userId = true) ∧
        after = { db with
          accounts := db.accounts ++ [{ row with createdAt := now, updatedAt := now }] } := by
  simp only [insertAccount, bind_eq_ok, pure_eq_ok, insertRow_eq_ok]
  simp

/-- Only an UPDATE of a user that does not exist is refused. -/
theorem updateUser_refused {original current : User} {exception : AppException}
    (refused : db.updateUser now original current = .error exception) :
    ∀ stored ∈ db.users, stored.id ≠ original.id := by
  intro stored member same
  have succeeds : db.updateUser now original current = .ok _ :=
    updateUser_eq_ok.mpr ⟨.inr ⟨stored, member, same⟩, rfl⟩
  rw [succeeds] at refused
  cases refused

theorem insertTotpCredential_eq_ok {row : TotpCredential} :
    db.insertTotpCredential now row = .ok after ↔
      ((∀ other ∈ db.totpCredentials, other.id ≠ row.id) ∧
        (∀ other ∈ db.totpCredentials, other.userId ≠ row.userId) ∧ db.hasUser row.userId = true) ∧
        after = { db with
          totpCredentials :=
            db.totpCredentials ++ [{ row with createdAt := now, updatedAt := now }] } := by
  simp only [insertTotpCredential, bind_eq_ok, pure_eq_ok, insertRow_eq_ok]
  simp

theorem insertApiKey_eq_ok {row : ApiKey} :
    db.insertApiKey now row = .ok after ↔
      ((∀ other ∈ db.apiKeys, other.id ≠ row.id) ∧
        (∀ other ∈ db.apiKeys, other.keyPrefix ≠ row.keyPrefix) ∧ db.hasUser row.userId = true) ∧
        after = { db with
          apiKeys := db.apiKeys ++ [{ row with createdAt := now, updatedAt := now }] } := by
  simp only [insertApiKey, bind_eq_ok, pure_eq_ok, insertRow_eq_ok]
  simp

theorem updateApiKey_eq_ok {original current : ApiKey} :
    db.updateApiKey now original current = .ok after ↔
      (current = original ∨ ∃ stored ∈ db.apiKeys, stored.id = original.id) ∧
        after = { db with
          apiKeys :=
            Table.updateWhere (fun stored => stored.id = original.id && current ≠ original)
              (original.merge current now) db.apiKeys } := by
  refine (update_eq_ok (current = original) (fun apiKeys => { db with apiKeys }) rfl).trans ?_
  simp

theorem updateTotpCredential_eq_ok {original current : TotpCredential} :
    db.updateTotpCredential now original current = .ok after ↔
      (current = original ∨ ∃ stored ∈ db.totpCredentials, stored.id = original.id) ∧
        after = { db with
          totpCredentials :=
            Table.updateWhere (fun stored => stored.id = original.id && current ≠ original)
              (original.merge current now) db.totpCredentials } := by
  refine (update_eq_ok (current = original)
    (fun totpCredentials => { db with totpCredentials }) rfl).trans ?_
  simp

theorem updateRecoveryCode_eq_ok {original current : RecoveryCode} :
    db.updateRecoveryCode now original current = .ok after ↔
      (current = original ∨ ∃ stored ∈ db.recoveryCodes, stored.id = original.id) ∧
        after = { db with
          recoveryCodes :=
            Table.updateWhere (fun stored => stored.id = original.id && current ≠ original)
              (original.merge current now) db.recoveryCodes } := by
  refine (update_eq_ok (current = original)
    (fun recoveryCodes => { db with recoveryCodes }) rfl).trans ?_
  simp

theorem updateRecoveryCode_ok {original current : RecoveryCode}
    (saved : db.updateRecoveryCode now original current = .ok after) :
    ∃ recoveryCodes, after = { db with recoveryCodes } :=
  ⟨_, (updateRecoveryCode_eq_ok.mp saved).2⟩

theorem updatePasskeyCredential_eq_ok {original current : PasskeyCredential} :
    db.updatePasskeyCredential now original current = .ok after ↔
      (current = original ∨ ∃ stored ∈ db.passkeyCredentials, stored.id = original.id) ∧
        after = { db with
          passkeyCredentials :=
            Table.updateWhere (fun stored => stored.id = original.id && current ≠ original)
              (original.merge current now) db.passkeyCredentials } := by
  refine (update_eq_ok (current = original)
    (fun passkeyCredentials => { db with passkeyCredentials }) rfl).trans ?_
  simp

theorem insertSigningKey_eq_ok {row : SigningKey} :
    db.insertSigningKey now row = .ok after ↔
      ((∀ other ∈ db.signingKeys, other.id ≠ row.id) ∧
        (∀ other ∈ db.signingKeys, other.keyId ≠ row.keyId) ∧
        (row.status = .active → ∀ other ∈ db.signingKeys, other.status ≠ .active)) ∧
        after = { db with
          signingKeys := db.signingKeys ++ [{ row with createdAt := now, updatedAt := now }] } := by
  simp only [insertSigningKey, bind_eq_ok, pure_eq_ok, insertRow_eq_ok]
  simp [Decidable.imp_iff_not_or (a := row.status = .active)]

theorem updateSigningKey_eq_ok {original current : SigningKey} :
    db.updateSigningKey now original current = .ok after ↔
      (current = original ∨ ∃ stored ∈ db.signingKeys, stored.id = original.id) ∧
        after = { db with
          signingKeys :=
            Table.updateWhere (fun stored => stored.id = original.id && current ≠ original)
              (original.merge current now) db.signingKeys } := by
  refine (update_eq_ok (current = original) (fun signingKeys => { db with signingKeys }) rfl).trans
    ?_
  simp

theorem insertVerificationToken_eq_ok {row : VerificationToken} :
    db.insertVerificationToken now row = .ok after ↔
      ((∀ other ∈ db.verificationTokens, other.id ≠ row.id) ∧
        (∀ other ∈ db.verificationTokens, other.tokenHash ≠ row.tokenHash) ∧
          row.userId.all db.hasUser = true) ∧
        after = { db with
          verificationTokens :=
            db.verificationTokens ++ [{ row with createdAt := now, updatedAt := now }] } := by
  simp only [insertVerificationToken, bind_eq_ok, pure_eq_ok, insertRow_eq_ok]
  simp

theorem insertVerificationToken_error {row : VerificationToken} {exception : AppException}
    (refused : db.insertVerificationToken now row = .error exception) :
    ¬ ((∀ other ∈ db.verificationTokens, other.id ≠ row.id) ∧
        (∀ other ∈ db.verificationTokens, other.tokenHash ≠ row.tokenHash) ∧
          row.userId.all db.hasUser = true) :=
  fun fits => nomatch (insertVerificationToken_eq_ok.mpr ⟨fits, rfl⟩).symm.trans refused

theorem insertVerificationToken_ok {row : VerificationToken}
    (saved : db.insertVerificationToken now row = .ok after) :
    ∃ verificationTokens, after = { db with verificationTokens } := by
  obtain ⟨verificationTokens, -, equal⟩ := bind_eq_ok.mp saved
  exact ⟨verificationTokens, pure_eq_ok.mp equal⟩

end Others

/-! ### Cascading deletes -/

/-- Delete sessions, with their refresh tokens. -/
def deleteSessions (pred : Session → Bool) (db : Db) : Db :=
  { db with
    sessions := Table.deleteWhere pred db.sessions
    refreshTokens := Table.deleteWhere
      (fun token => db.sessions.any fun session => session.id = token.sessionId && pred session)
      db.refreshTokens }

/-- Delete a user, with all rows that refer to it. Audit entries stay, without their subject. -/
def deleteUser (row : User) (db : Db) : Except AppException Db :=
  if db.hasUser row.id then
    let db := db.deleteSessions (·.userId = row.id)
    .ok { db with
      users := Table.deleteWhere (·.id = row.id) db.users
      accounts := Table.deleteWhere (·.userId = row.id) db.accounts
      verificationTokens := Table.deleteWhere (·.userId = some row.id) db.verificationTokens
      totpCredentials := Table.deleteWhere (·.userId = row.id) db.totpCredentials
      recoveryCodes := Table.deleteWhere (·.userId = row.id) db.recoveryCodes
      passkeyCredentials := Table.deleteWhere (·.userId = row.id) db.passkeyCredentials
      apiKeys := Table.deleteWhere (·.userId = row.id) db.apiKeys
      userRoles := Table.deleteWhere (·.userId = row.id) db.userRoles
      auditLogEntries := Table.updateWhere (·.userId = some row.id) ({ · with userId := none })
        db.auditLogEntries }
  else .error .dbUpdateConcurrency

end Db

end AuthStartpack
