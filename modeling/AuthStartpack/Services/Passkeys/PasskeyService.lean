import Mathlib
import AuthStartpack.Services.Auth.AuthenticationSessionFactory
import AuthStartpack.Services.Tokens.VerificationTokens

/-!
Owns `PasskeyService`: the challenges of both ceremonies, their completion with
the response of an authenticator, and the removal of a passkey. The FIDO2 package
is given by what it finds in a response.
-/

namespace AuthStartpack

/-- What the service reads in the JSON of an authenticator response; `none` where reading throws. -/
structure AuthenticatorResponse where
  raw : Option String
  challenge : Option String
  rawId : Option String
deriving DecidableEq, Repr

/-- What `MakeNewCredentialAsync` finds in an attestation. -/
structure AttestedCredential where
  credentialId : String
  publicKey : String
  signCount : ℕ
  aaguid : Guid
  transports : List String
deriving DecidableEq, Repr

/-- What `MakeAssertionAsync` is given. -/
structure MakeAssertionParams where
  assertionResponse : String
  challenge : String
  storedPublicKey : String
  storedSignatureCounter : ℕ
  userId : Guid
  credentialId : String
deriving DecidableEq, Repr

/-- The FIDO2 package: the credential of an attestation for a user, and the counter of an assertion
that it accepts (`none` is an exception). -/
structure Fido2 where
  makeNewCredential : String → String → User → Option AttestedCredential
  makeAssertion : MakeAssertionParams → Option ℕ

/-- The response without the timestamp that the save puts on the row. -/
structure PasskeyResponse where
  credentialId : String
  label : Option String
  aaguid : Option Guid
  lastUsedAt : Option Instant
deriving DecidableEq, Repr

namespace PasskeyService

variable (services : Services) (fido2 : Fido2) (http : HttpContext)

/-- The challenge of the registration options and their expiry, which is read once more. -/
def registrationOptionsAsync (userId : Guid) : Action IssuedVerificationToken := do
  let found ← Action.queryOrThrow fun db =>
    Action.singleOrDefault (db.users.filter (·.id = userId))
  let _ ← Action.orThrow (.resourceNotFound "user") found
  let challenge ← VerificationTokens.store services (some userId) .passkeyRegistrationChallenge
    services.sessionOptions.webAuthnChallengeLifetime
  let now ← Action.utcNow
  return ⟨challenge.value, now + services.sessionOptions.webAuthnChallengeLifetime⟩

def authenticationOptionsAsync : Action IssuedVerificationToken := do
  let challenge ← VerificationTokens.store services none .passkeyAuthenticationChallenge
    services.sessionOptions.webAuthnChallengeLifetime
  let now ← Action.utcNow
  return ⟨challenge.value, now + services.sessionOptions.webAuthnChallengeLifetime⟩

def consumeChallengeAsync (challenge : String) (type : VerificationTokenType) (userId : Option Guid)
    (consumer : TokenConsumer) : Action Unit := do
  let hash := services.tokenGenerator.hash challenge
  let now ← Action.utcNow
  let consumed ← VerificationTokens.consume hash type now (·.userId = userId) consumer
  if consumed = 0 then
    throw (if type = .passkeyAuthenticationChallenge then .invalidCredentials else .invalidToken)

def toResponse (credential : PasskeyCredential) : PasskeyResponse where
  credentialId := credential.credentialId
  label := credential.label
  aaguid := if credential.aaguid = 0 then none else some credential.aaguid
  lastUsedAt := credential.lastUsedAt

def completeRegistrationAsync (userId : Guid) (request : AuthenticatorResponse)
    (label : Option String) : Action PasskeyResponse :=
  tryCatch
    (do
      let raw ← Action.orThrow .invalidToken request.raw
      let challenge ← Action.orThrow .invalidToken request.challenge
      consumeChallengeAsync services challenge .passkeyRegistrationChallenge (some userId)
        (.passkeyRegistration userId)
      let user ← Action.queryOrThrow fun db => Action.single (db.users.filter (·.id = userId))
      let result ← Action.orThrow (.invalidOperation "The attestation is not valid.")
        (fido2.makeNewCredential raw challenge user)
      let taken ← Action.query fun db =>
        db.passkeyCredentials.any (·.credentialId = result.credentialId)
      if taken then
        throw (.invalidOperation "The credential id is not unique.")
      let id ← Action.draw
      let credential : PasskeyCredential :=
        { id
          userId
          credentialId := result.credentialId
          publicKey := result.publicKey
          signCount := result.signCount
          aaguid := result.aaguid
          transports := result.transports
          label := label.map trim }
      Action.saveChanges fun now db => db.insertPasskeyCredential now credential
      SecurityNotificationService.notifyAsync none userId "Passkey added"
      return toResponse credential)
    fun _ => throw .invalidToken

def completeAuthenticationAsync (request : AuthenticatorResponse) : Action LoginResponse :=
  tryCatch
    (do
      let raw ← Action.orThrow .invalidCredentials request.raw
      let challenge ← Action.orThrow .invalidToken request.challenge
      consumeChallengeAsync services challenge .passkeyAuthenticationChallenge none
        .passkeyAuthentication
      let credentialId ← Action.orThrow .invalidCredentials request.rawId
      let found ← Action.queryOrThrow fun db =>
        Action.singleOrDefault (db.passkeyCredentials.filter (·.credentialId = credentialId))
      let credential ← Action.orThrow .invalidCredentials found
      if 2 ^ 32 ≤ credential.signCount then
        throw (.invalidOperation "Arithmetic operation resulted in an overflow.")
      let signCount ← Action.orThrow (.invalidOperation "The assertion is not valid.")
        (fido2.makeAssertion
          { assertionResponse := raw
            challenge
            storedPublicKey := credential.publicKey
            storedSignatureCounter := credential.signCount
            userId := credential.userId
            credentialId := credential.credentialId })
      if credential.signCount ≠ 0 && signCount ≤ credential.signCount then
        throw .invalidCredentials
      let lastUsedAt ← Action.utcNow
      Action.saveChanges
        (fun now db => db.updatePasskeyCredential now credential
          { credential with signCount, lastUsedAt := some lastUsedAt })
        fun _ => [.passkeyAsserted credential signCount]
      let response ← AuthenticationSessionFactory.createAsync services http credential.userId
        [.passkey]
      AuditLogger.logAsync http .loginSucceeded (some credential.userId)
      return response)
    fun _ => throw .invalidCredentials

/-- `credentialId` is decoded already; `none` is a text that is not base64url. -/
def removeAsync (userId : Guid) (credentialId : Option String) : Action Unit := do
  let decoded ← Action.orThrow (.resourceNotFound "passkey") credentialId
  let hit (credential : PasskeyCredential) : Bool :=
    credential.userId = userId && credential.credentialId = decoded
  let deleted ← Action.execute (fun db => db.passkeyCredentials.countP hit)
    (fun db => { db with passkeyCredentials := Table.deleteWhere hit db.passkeyCredentials })
    fun db => (db.passkeyCredentials.filter hit).map .passkeyRemoved
  if deleted = 0 then
    throw (.resourceNotFound "passkey")
  SecurityNotificationService.notifyAsync none userId "Passkey removed"

end PasskeyService

end AuthStartpack
