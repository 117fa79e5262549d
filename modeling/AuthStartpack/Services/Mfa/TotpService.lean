import AuthStartpack.Services.Audit
import AuthStartpack.Services.Tokens.SessionService

/-!
Owns `TotpService`: enrolling, confirming, verifying and disabling an
authenticator, and the recovery codes that stand in for it.
-/

namespace AuthStartpack

structure TotpEnrollmentResponse where
  secret : String
  otpAuthUri : String
  requiresConfirmation : Bool
deriving DecidableEq, Repr

structure RecoveryCodesResponse where
  codes : List String
  generatedAt : Instant
deriving DecidableEq, Repr

namespace TotpService

variable (services : Services) (http : HttpContext)

def recoveryCodeCount : ℕ := 10

/-- `MatchTotp`: the time step around now that the code has under the secret. -/
def matchTotp (credential : TotpCredential) (code : String) : Action (Option ℤ) := do
  let secret ← Action.orThrow .cryptographic (services.totp.unprotect credential.secretEncrypted)
  let now ← Action.utcNow
  return services.totp.verifyTotp secret now code

/-- The user with this id, with its credential (`Include`). -/
def withCredential (userId : Guid) (db : Db) : List (User × Option TotpCredential) :=
  (db.users.filter (·.id = userId)).map fun user =>
    (user, db.totpCredentials.find? (·.userId = user.id))

def enrollAsync (userId : Guid) : Action TotpEnrollmentResponse := do
  let found ← Action.queryOrThrow fun db => Action.singleOrDefault (withCredential userId db)
  let user ← Action.orThrow (.resourceNotFound "user") found
  if user.2.any (·.confirmedAt.isSome) then
    throw (.conflict "mfa_already_enrolled" "TOTP is already enabled.")
  let secret := services.totp.newSecret (← Action.draw)
  let encrypted := services.totp.protect secret (← Action.draw)
  match user.2 with
  | none =>
      let id ← Action.draw
      Action.saveChanges fun now db =>
        db.insertTotpCredential now { id, userId, secretEncrypted := encrypted }
  | some credential =>
      Action.saveChanges
        (fun now db => db.updateTotpCredential now credential
          { credential with secretEncrypted := encrypted })
        fun _ => [.totpSecretReplaced credential]
  let label := escapeDataString user.1.email
  return {
    secret
    otpAuthUri := s!"otpauth://totp/dotnet-web-api-startpack:{label}?secret={secret}" ++
      "&issuer=dotnet-web-api-startpack"
    requiresConfirmation := true }

/-- `FormatRecoveryCode`; an opaque token has more than twelve characters. -/
def formatRecoveryCode (value : String) : String :=
  let characters := value.toList
  String.ofList (characters.take 4 ++ ['-'] ++ (characters.drop 4).take 4 ++ ['-'] ++
    (characters.drop 8).take 4)

def newCodes : ℕ → Action (List String)
  | 0 => return []
  | count + 1 => do
      let code := formatRecoveryCode (services.tokenGenerator.newOpaqueToken (← Action.draw))
      return code :: (← newCodes count)

def newRecoveryCodes (userId : Guid) : List String → Action (List RecoveryCode)
  | [] => return []
  | code :: rest => do
      let id ← Action.draw
      let salt ← Action.draw
      let row : RecoveryCode :=
        { id, userId, codeHash := services.passwordHasher.hashSecret code salt }
      return row :: (← newRecoveryCodes userId rest)

/-- `ReplaceRecoveryCodesAsync`. Its save also sends what the caller has changed (`pending`). -/
def replaceRecoveryCodesAsync (userId : Guid) (pending : Instant → Db → Except AppException Db)
    (events : Db → List Event) : Action RecoveryCodesResponse := do
  let _ ← Action.execute (fun db => db.recoveryCodes.countP (·.userId = userId))
    (fun db => { db with recoveryCodes := Table.deleteWhere (·.userId = userId) db.recoveryCodes })
    fun _ => []
  let plaintext ← newCodes services recoveryCodeCount
  let rows ← newRecoveryCodes services userId plaintext
  let generatedAt ← Action.utcNow
  Action.saveChanges
    (fun now db => do rows.foldlM (fun db row => db.insertRecoveryCode now row) (← pending now db))
    events
  return ⟨plaintext, generatedAt⟩

def confirmAsync (userId : Guid) (code : String) : Action RecoveryCodesResponse := do
  let found ← Action.queryOrThrow fun db =>
    Action.singleOrDefault (db.totpCredentials.filter (·.userId = userId))
  let credential ← Action.orThrow .invalidToken found
  let matchedTimeStep ← Action.orThrow .invalidToken (← matchTotp services credential code)
  let confirmedAt ← Action.utcNow
  let confirmed :=
    { credential with confirmedAt := some confirmedAt, lastUsedTimeStep := some matchedTimeStep }
  let recoveryCodes ← replaceRecoveryCodesAsync services userId
    (fun now db => db.updateTotpCredential now credential confirmed)
    fun _ => [.totpConfirmed credential code matchedTimeStep]
  SecurityNotificationService.notifyAsync none userId "Multi-factor authentication enabled"
  return recoveryCodes

/-- A confirmed credential of this user. -/
def enabledFor (userId : Guid) (credential : TotpCredential) : Bool :=
  credential.userId = userId && credential.confirmedAt.isSome

/-- The row that a claim of this time step updates. -/
def claimable (credentialId : Guid) (timeStep : ℤ) (credential : TotpCredential) : Bool :=
  credential.id = credentialId && credential.lastUsedTimeStep.all (· < timeStep)

def verifyAsync (userId : Guid) (code : String) : Action (Option AuthenticationMethod) := do
  let found ← Action.queryOrThrow fun db =>
    Action.singleOrDefault (db.totpCredentials.filter (enabledFor userId))
  match found with
  | none => return none
  | some credential =>
      match ← matchTotp services credential code with
      | some matchedTimeStep =>
          let now ← Action.utcNow
          let hit := claimable credential.id matchedTimeStep
          let claimed ← Action.execute (fun db => db.totpCredentials.countP hit)
            (fun db => { db with
              totpCredentials := Table.updateWhere hit
                ({ · with lastUsedTimeStep := some matchedTimeStep, updatedAt := now })
                db.totpCredentials })
            fun db =>
              if db.totpCredentials.countP hit = 1
                then [.totpVerified credential.id matchedTimeStep]
              else []
          return if claimed = 1 then some .totp else none
      | none =>
          let recoveryCodes ← Action.query fun db =>
            db.recoveryCodes.filter fun candidate =>
              candidate.userId = userId && candidate.usedAt.isNone
          match recoveryCodes.find? fun candidate =>
              services.passwordHasher.verify code candidate.codeHash with
          | none => return none
          | some recoveryCode =>
              let usedAt ← Action.utcNow
              Action.saveChanges
                (fun now db =>
                  db.updateRecoveryCode now recoveryCode
                    { recoveryCode with usedAt := some usedAt })
                fun _ => [.recoveryCodeUsed recoveryCode]
              return some .recoveryCode

def disableAsync (userId : Guid) : Action Unit := do
  let deleted ← Action.execute (fun db => db.totpCredentials.countP (enabledFor userId))
    (fun db => { db with
      totpCredentials := Table.deleteWhere (enabledFor userId) db.totpCredentials })
    fun _ => []
  if deleted = 0 then
    throw (.resourceNotFound "totp credential")
  let _ ← Action.execute (fun db => db.recoveryCodes.countP (·.userId = userId))
    (fun db => { db with recoveryCodes := Table.deleteWhere (·.userId = userId) db.recoveryCodes })
    fun _ => []
  let revoked ← SessionService.revokeAllForUserAsync userId none .mfaDisabled
  if 0 < revoked then
    AuditLogger.logAsync http .sessionRevoked (some userId)
  SecurityNotificationService.notifyAsync none userId "Multi-factor authentication disabled"

def regenerateRecoveryCodesAsync (userId : Guid) : Action RecoveryCodesResponse := do
  let enabled ← Action.query fun db => db.totpCredentials.any (enabledFor userId)
  if !enabled then
    throw (.conflict "mfa_not_enrolled" "TOTP is not enabled.")
  let recoveryCodes ← replaceRecoveryCodesAsync services userId (fun _ db => .ok db) fun _ => []
  SecurityNotificationService.notifyAsync none userId "Recovery codes regenerated"
  return recoveryCodes

end TotpService

end AuthStartpack
