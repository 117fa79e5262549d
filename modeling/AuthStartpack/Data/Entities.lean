import Mathlib.Data.Int.Notation
import Mathlib.Data.List.Basic

/-!
Owns the rows of the auth schema: one structure per entity of `Models/`, with
the columns of its table and without the navigation properties.

Instants and durations are integers of one unit. A `Guid` is a number, and the
text of a security stamp (`Guid.ToString("N")`) is that number again.
-/

namespace AuthStartpack

abbrev Guid := ℕ
abbrev Instant := ℤ
abbrev Duration := ℤ

inductive AuthenticationMethod
  | password
  | totp
  | recoveryCode
  | passkey
  | google
  | gitHub
deriving DecidableEq, Repr

inductive SessionRevocationReason
  | logout
  | userRevokedSession
  | userRevokedAllSessions
  | passwordChanged
  | passwordReset
  | tokenReuseDetected
  | adminRevoked
  | accountDeleted
  | mfaDisabled
deriving DecidableEq, Repr

inductive SigningKeyStatus
  | active
  | retiring
  | retired
deriving DecidableEq, Repr

inductive VerificationTokenType
  | emailVerification
  | passwordReset
  | mfaChallenge
  | passkeyRegistrationChallenge
  | passkeyAuthenticationChallenge
  | socialAuthorizationState
deriving DecidableEq, Repr

inductive AuditEventType
  | userRegistered
  | loginSucceeded
  | loginFailed
  | mfaChallengeIssued
  | mfaFailed
  | accountLocked
  | tokenRefreshed
  | tokenReuseDetected
  | sessionRevoked
  | passwordChanged
  | passwordResetRequested
  | passwordResetCompleted
  | emailVerified
  | mfaEnrolled
  | mfaDisabled
  | passkeyRegistered
  | passkeyRemoved
  | apiKeyCreated
  | apiKeyRevoked
  | roleGranted
  | roleRevoked
  | adminUserUpdated
  | adminUserDeleted
  | signingKeyRotated
deriving DecidableEq, Repr

structure User where
  id : Guid
  email : String
  emailVerified : Bool := false
  passwordHash : Option String := none
  displayName : Option String := none
  securityStamp : Guid
  failedLoginCount : ℕ := 0
  lockoutEndsAt : Option Instant := none
  createdAt : Instant := 0
  updatedAt : Instant := 0
deriving DecidableEq, Repr

structure Session where
  id : Guid
  userId : Guid
  ipAddress : Option String := none
  userAgent : Option String := none
  deviceLabel : Option String := none
  authenticatedAt : Instant
  authenticationMethods : List AuthenticationMethod
  securityStamp : Guid
  lastActiveAt : Instant
  absoluteExpiresAt : Instant
  revokedAt : Option Instant := none
  revocationReason : Option SessionRevocationReason := none
  createdAt : Instant := 0
  updatedAt : Instant := 0
deriving DecidableEq, Repr

structure RefreshToken where
  id : Guid
  sessionId : Guid
  tokenHash : String
  expiresAt : Instant
  usedAt : Option Instant := none
  replacedByTokenId : Option Guid := none
  createdAt : Instant := 0
  updatedAt : Instant := 0
deriving DecidableEq, Repr

structure VerificationToken where
  id : Guid
  userId : Option Guid := none
  type : VerificationTokenType
  tokenHash : String
  expiresAt : Instant
  consumedAt : Option Instant := none
  createdAt : Instant := 0
  updatedAt : Instant := 0
deriving DecidableEq, Repr

structure TotpCredential where
  id : Guid
  userId : Guid
  secretEncrypted : String
  confirmedAt : Option Instant := none
  lastUsedTimeStep : Option ℤ := none
  createdAt : Instant := 0
  updatedAt : Instant := 0
deriving DecidableEq, Repr

structure RecoveryCode where
  id : Guid
  userId : Guid
  codeHash : String
  usedAt : Option Instant := none
  createdAt : Instant := 0
  updatedAt : Instant := 0
deriving DecidableEq, Repr

structure PasskeyCredential where
  id : Guid
  userId : Guid
  credentialId : String
  publicKey : String
  signCount : ℕ
  aaguid : Guid
  transports : List String := []
  label : Option String := none
  lastUsedAt : Option Instant := none
  createdAt : Instant := 0
  updatedAt : Instant := 0
deriving DecidableEq, Repr

structure Account where
  id : Guid
  userId : Guid
  provider : String
  providerAccountId : String
  createdAt : Instant := 0
  updatedAt : Instant := 0
deriving DecidableEq, Repr

structure ApiKey where
  id : Guid
  userId : Guid
  name : String
  keyPrefix : String
  keyHash : String
  scopes : List String
  expiresAt : Option Instant := none
  lastUsedAt : Option Instant := none
  revokedAt : Option Instant := none
  createdAt : Instant := 0
  updatedAt : Instant := 0
deriving DecidableEq, Repr

structure Role where
  id : Guid
  name : String
  description : Option String := none
  createdAt : Instant := 0
  updatedAt : Instant := 0
deriving DecidableEq, Repr

structure UserRole where
  userId : Guid
  roleId : Guid
  createdAt : Instant := 0
  updatedAt : Instant := 0
deriving DecidableEq, Repr

structure AuditLogEntry where
  id : Guid
  userId : Option Guid
  eventType : AuditEventType
  ipAddress : Option String := none
  userAgent : Option String := none
  occurredAt : Instant
deriving DecidableEq, Repr

/-- Public and protected private key are in base64. -/
structure SigningKey where
  id : Guid
  keyId : String
  privateKeyProtected : String
  publicKey : String
  status : SigningKeyStatus
  activatedAt : Instant := 0
  retiringAt : Option Instant := none
  retiredAt : Option Instant := none
  createdAt : Instant := 0
  updatedAt : Instant := 0
deriving DecidableEq, Repr

end AuthStartpack
