import AuthStartpack.Services.Audit
import AuthStartpack.Services.Caching.HybridCache

/-!
Owns `SigningKeyManager`: the ring of signing keys, of which one is active. The
first caller that finds no active key adds one, a rotation demotes the active
key for a new one, and a demoted key is retired after a grace period.
-/

namespace AuthStartpack

structure SignatureResult where
  keyId : String
  signature : String
deriving DecidableEq, Repr

namespace SigningKeyManager

variable (services : Services) (http : HttpContext)

def cacheKey (keyId : String) : String := "signing-key:" ++ keyId

/-- `DbUpdateException` and what derives from it. -/
def isDbUpdateException : AppException → Bool
  | .dbUpdate _ | .dbUpdateConcurrency | .valueTooLong _ | .characterNotInRepertoire => true
  | _ => false

def createKey (now : Instant) : Action SigningKey := do
  let pair ← Action.draw
  let nonce ← Action.draw
  let publicKey := services.signing.publicKey pair
  return {
    id := ← Action.draw
    keyId := services.signing.thumbprint publicKey
    publicKey
    privateKeyProtected := services.signing.protect (services.signing.privateKey pair) nonce
    status := .active
    activatedAt := now }

def activeKeys (db : Db) : List SigningKey := db.signingKeys.filter (·.status = .active)

/-- A caller that loses the race to create the first key reads the key of the winner. -/
def getOrCreateActiveKeyAsync : Action SigningKey := do
  let active ← Action.queryOrThrow fun db => Action.singleOrDefault (activeKeys db)
  match active with
  | some key => return key
  | none =>
      let created ← createKey services (← Action.utcNow)
      let add := Action.attemptChanges (fun savedAt db => db.insertSigningKey savedAt created)
        [.signingKeyOffered none created]
      let saved ← tryCatch (do add; return true) fun exception =>
        if isDbUpdateException exception then pure false else throw exception
      if saved then
        return created
      else
        Action.queryOrThrow fun db => Action.single (activeKeys db)

def getActiveKeyIdAsync : Action String := do
  return (← getOrCreateActiveKeyAsync services).keyId

/-- Demote the active key, if there is one, and add its replacement, in one save. -/
def replaceKey (current : Option SigningKey) (replacement : SigningKey) (now savedAt : Instant)
    (db : Db) : Except AppException Db := do
  let db ← match current with
    | some key =>
        db.updateSigningKey savedAt key { key with status := .retiring, retiringAt := some now }
    | none => .ok db
  db.insertSigningKey savedAt replacement

def rotateAsync : Action String := do
  let now ← Action.utcNow
  let current ← Action.queryOrThrow fun db => Action.singleOrDefault (activeKeys db)
  let replacement ← createKey services now
  Action.attemptChanges (replaceKey current replacement now)
    [.signingKeyOffered current replacement]
  AuditLogger.logAsync http .signingKeyRotated none
  return replacement.keyId

def sign (key : SigningKey) (payload : String) : Action SignatureResult := do
  let privateKey ← Action.orThrow .cryptographic
    (services.signing.unprotect key.privateKeyProtected)
  let nonce ← Action.drawReporting (.payloadSigned key.keyId)
  return { keyId := key.keyId, signature := services.signing.signData privateKey nonce payload }

/-- In Development, a key that cannot be unprotected any more is replaced. -/
def signAsync (payload : String) : Action SignatureResult := do
  let key ← getOrCreateActiveKeyAsync services
  tryCatch (sign services key payload) fun exception =>
    if exception = .cryptographic ∧ services.isDevelopment = true then do
      let _ ← rotateAsync services http
      let replacement ← getOrCreateActiveKeyAsync services
      sign services replacement payload
    else throw exception

/-- Demoted long enough ago. -/
def elapsed (cutoff : Instant) (key : SigningKey) : Bool :=
  key.status = .retiring && key.retiringAt.any (· ≤ cutoff)

/-- The rows as read, and as the loop over them leaves them. -/
def retireKeys : List SigningKey → Action (List (SigningKey × SigningKey))
  | [] => return []
  | key :: rest => do
      let now ← Action.utcNow
      let retired ← retireKeys rest
      return (key, { key with status := .retired, retiredAt := some now }) :: retired

/-- The updates of a save, one for each modified row. -/
def updateKeys (rows : List (SigningKey × SigningKey)) (savedAt : Instant) (db : Db) :
    Except AppException Db :=
  rows.foldlM (fun db row => db.updateSigningKey savedAt row.1 row.2) db

def removeKeys (process : ℕ) : List SigningKey → Action Unit
  | [] => return ()
  | key :: rest => do
      HybridCache.removeAsync services process (cacheKey key.keyId)
      removeKeys process rest

def retireElapsedKeysAsync (process : ℕ) : Action ℕ := do
  let cutoff := (← Action.utcNow) - services.jwtOptions.keyRetirementGrace
  let keys ← Action.query fun db => db.signingKeys.filter (elapsed cutoff)
  let retired ← retireKeys keys
  if 0 < keys.length then
    Action.saveChanges (updateKeys retired) fun _ => [.signingKeysRetired keys]
    removeKeys services process keys
  return keys.length

/-- Active or retiring, with this `kid`: a key by which `ResolveValidationKeyAsync` validates. -/
def validates (keyId : String) (key : SigningKey) : Bool :=
  key.keyId = keyId && (key.status = .active || key.status = .retiring)

end SigningKeyManager

end AuthStartpack
