import AuthStartpack.Handlers.RolePermissionMap
import AuthStartpack.Program.Returns
import AuthStartpack.Services.Tokens.RefreshTokenService

/-!
Owns the creation and the revocation of API keys. A key grants at most what
the roles of its owner grant at that moment, and its text is made of a prefix
that is stored and a secret that is stored as a hash.
-/

namespace AuthStartpack

structure CreateApiKeyRequest where
  name : String
  scopes : List String
  expiresAt : Option Instant := none
deriving DecidableEq, Repr

/-- The response without the time at which the key was created. -/
structure CreateApiKeyResponse where
  id : Guid
  name : String
  key : String
  keyPrefix : String
  scopes : List String
  expiresAt : Option Instant
deriving DecidableEq, Repr

namespace ApiKeyService

variable (services : Services)

def prefixLength : ℕ := 12

/-- The characters collected so far, with those of one more token. -/
def collect (collected : List Char) (token : String) : List Char :=
  (collected ++ token.toList.filter Char.isAlphanum).take prefixLength

/-- `CreatePrefix`, as far as it needs no more than so many rounds of its loop. -/
def createPrefix (collected : List Char) : ℕ → Action String
  | 0 =>
      if collected.length < prefixLength then throw .operationCanceled
      else return String.ofList collected
  | rounds + 1 =>
      if collected.length < prefixLength then do
        let token := services.tokenGenerator.newOpaqueToken (← Action.draw)
        createPrefix (collect collected token) rounds
      else return String.ofList collected

/-- The text of a key. -/
def keyText (keyPrefix secret : String) : String := "ak_" ++ keyPrefix ++ "_" ++ secret

def createAsync (rounds : ℕ) (userId : Guid) (request : CreateApiKeyRequest) :
    Action CreateApiKeyResponse := do
  let roles ← Action.query fun db => db.roleNames userId
  let granted := roles.flatMap RolePermissionMap.permissionsFor
  if request.scopes.any fun scope => !granted.contains scope then
    throw .forbiddenOperation
  else
    let keyPrefix ← createPrefix services [] rounds
    let secret := services.tokenGenerator.newOpaqueToken (← Action.draw)
    let key : ApiKey :=
      { id := ← Action.draw
        userId
        name := trim request.name
        keyPrefix
        keyHash := services.passwordHasher.hashSecret secret (← Action.draw)
        scopes := request.scopes.eraseDups
        expiresAt := request.expiresAt }
    Action.saveChanges fun savedAt db => db.insertApiKey savedAt key
    SecurityNotificationService.notifyAsync none userId "API key created"
    return {
      id := key.id
      name := key.name
      key := keyText keyPrefix secret
      keyPrefix
      scopes := key.scopes
      expiresAt := key.expiresAt }

def revokeAsync (userId keyId : Guid) : Action Unit := do
  let found ← Action.queryOrThrow fun db =>
    Action.singleOrDefault (db.apiKeys.filter fun key =>
      key.id = keyId && key.userId = userId && key.revokedAt = none)
  let key ← Action.orThrow (.resourceNotFound "API key") found
  let now ← Action.utcNow
  Action.saveChanges fun savedAt db =>
    db.updateApiKey savedAt key { key with revokedAt := some now }
  SecurityNotificationService.notifyAsync none userId "API key revoked"

variable {services} in
/-- Whatever else happens, the text of a returned key is made of a prefix and a secret. -/
theorem createAsync_key {rounds : ℕ} {userId : Guid} {request : CreateApiKeyRequest}
    {response : CreateApiKeyResponse}
    (returns : (createAsync services rounds userId request).Returns response) :
    ∃ keyPrefix secret, response.key = keyText keyPrefix secret := by
  unfold createAsync at returns
  obtain ⟨roles, -, granted⟩ := Program.returns_bind.mp returns
  dsimp only at granted
  split at granted
  · exact absurd granted Program.not_returns_throw
  · simp only [Program.returns_bind, Program.returns_pure] at granted
    obtain ⟨keyPrefix, -, number, -, id, -, salt, -, -, -, -, -, rfl⟩ := granted
    exact ⟨keyPrefix, _, rfl⟩

end ApiKeyService

end AuthStartpack
