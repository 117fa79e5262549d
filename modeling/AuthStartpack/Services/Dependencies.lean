import AuthStartpack.Data.Entities

/-!
Owns what the services are given and do not compute themselves: the options, the
request they serve, and the packages they call (hashing, random values, one-time
passwords, data protection). A random value is a function of the number under
which it was drawn.
-/

namespace AuthStartpack

/-- One second, in the 100 nanosecond ticks that instants count. -/
def ticksPerSecond : ℤ := 10000000

structure AuthSessionOptions where
  inactivityWindow : Duration
  absoluteLifetime : Duration
  recentAuthenticationWindow : Duration
  mfaTicketLifetime : Duration
  webAuthnChallengeLifetime : Duration

structure JwtOptions where
  issuer : String := ""
  audience : String := ""
  accessTokenLifetime : Duration := 900 * ticksPerSecond
  clockSkew : Duration := 30 * ticksPerSecond
  algorithm : String := "ES256"
  keyRetirementGrace : Duration := 1200 * ticksPerSecond

structure LockoutOptions where
  enabled : Bool
  maxFailedAttempts : ℕ
  lockoutDuration : Duration

structure CleanupOptions where
  batchSize : ℕ
  auditRetention : Duration

structure TokenGenerator where
  newOpaqueToken : ℕ → String
  hash : String → String

/-- `hash` and `hashSecret` take the number of the drawn salt. -/
structure PasswordHasher where
  hash : String → ℕ → String
  hashSecret : String → ℕ → String
  verify : String → String → Bool
  needsRehash : String → Bool

/-- The TOTP secrets: drawing one, sealing it under a drawn nonce, opening it (`none` is a
cryptographic failure), and the time step in the window around an instant that a code matches. -/
structure TotpPackage where
  newSecret : ℕ → String
  protect : String → ℕ → String
  unprotect : String → Option String
  verifyTotp : String → Instant → String → Option ℤ

/-- A value of a JSON object. -/
inductive JsonValue
  | text (value : String)
  | number (value : ℤ)
  | flag (value : Bool)
  | texts (values : List String)
deriving DecidableEq, Repr

/-- The signing of access tokens: drawing a key pair, the thumbprint of a public key, sealing a
private key under a drawn nonce and opening it (`none` is a cryptographic failure), signing a text
with a private key under a drawn nonce, and the base64 text of a JSON object. -/
structure SigningPackage where
  publicKey : ℕ → String
  privateKey : ℕ → String
  thumbprint : String → String
  protect : String → ℕ → String
  unprotect : String → Option String
  signData : String → ℕ → String → String
  encodeSegment : List (String × JsonValue) → String

/-- `lower` is the `lower()` of the database's locale, by which email addresses are compared. -/
structure Services where
  sessionOptions : AuthSessionOptions
  jwtOptions : JwtOptions
  lockoutOptions : LockoutOptions
  cleanupOptions : CleanupOptions
  tokenGenerator : TokenGenerator
  passwordHasher : PasswordHasher
  dummyPasswordHash : String
  totp : TotpPackage
  signing : SigningPackage
  lower : String → String
  redisEnabled : Bool := false
  isDevelopment : Bool := false

/-- The request a service acts for; `caller` is its authenticated user. -/
structure HttpContext where
  caller : Option Guid := none
  remoteIpAddress : Option String := none
  userAgent : Option String := none
deriving DecidableEq, Repr

/-- A small instance on which the definitions can be evaluated. Values are told apart by length,
hashes and ciphertexts carry what they hide. -/
def Services.sample : Services where
  sessionOptions := ⟨360, 10080, 5, 5, 5⟩
  jwtOptions := { accessTokenLifetime := 15 }
  lockoutOptions := ⟨true, 5, 15⟩
  cleanupOptions := ⟨1000, 129600⟩
  tokenGenerator :=
    { newOpaqueToken := fun number => String.ofList (List.replicate number 't')
      hash := fun token => "sha256:" ++ token }
  passwordHasher :=
    { hash := fun password salt => String.ofList (List.replicate salt 's') ++ "$" ++ password
      hashSecret := fun secret salt => String.ofList (List.replicate salt 's') ++ "$" ++ secret
      verify := fun password hash => hash.toList.dropWhile (· ≠ '$') = '$' :: password.toList
      needsRehash := fun hash => hash.toList.head? = some 'o' }
  dummyPasswordHash := "s$dummy-password-never-accepted"
  totp :=
    { newSecret := fun number => String.ofList (List.replicate number 'k')
      protect := fun secret nonce => String.ofList (List.replicate nonce 'n') ++ "$" ++ secret
      unprotect := fun sealed => some (String.ofList (sealed.toList.dropWhile (· ≠ '$')).tail)
      verifyTotp := fun secret now code => if code = secret then some (now / 30) else none }
  signing :=
    { publicKey := fun number => String.ofList (List.replicate number 'p')
      privateKey := fun number => String.ofList (List.replicate number 'q')
      thumbprint := fun publicKey => "kid:" ++ publicKey
      protect := fun privateKey nonce => String.ofList (List.replicate nonce 'n') ++
        "$" ++ privateKey
      unprotect := fun sealed => some (String.ofList (sealed.toList.dropWhile (· ≠ '$')).tail)
      signData := fun privateKey _ text => privateKey ++ ":" ++ text
      encodeSegment := fun segment => String.join (segment.map fun entry =>
        match entry.2 with
        | .text value => entry.1 ++ "=" ++ value ++ ";"
        | _ => entry.1 ++ ";") }
  lower := fun text => String.ofList (text.toList.map Char.toLower)

namespace RoleSeed

def userRoleId : Guid := 0x0198f3a0000070008000000000000002

end RoleSeed

def toUnixTimeSeconds (instant : Instant) : ℤ := instant / ticksPerSecond

/-- `Uri.EscapeDataString`: all but the unreserved characters, as percent-encoded UTF-8. -/
def escapeDataString (text : String) : String :=
  let unreserved (character : Char) : Bool :=
    character.isAlphanum || ['-', '.', '_', '~'].contains character
  let escaped (byte : UInt8) : List Char :=
    ['%', Nat.digitChar (byte.toNat / 16), Nat.digitChar (byte.toNat % 16)].map Char.toUpper
  String.ofList (text.toList.flatMap fun character =>
    if unreserved character then [character]
    else (String.utf8EncodeChar character).flatMap escaped)

/-- `value.Length <= maxLength ? value : value[..maxLength]` -/
def truncate (value : Option String) (maxLength : ℕ) : Option String :=
  value.map fun text => String.ofList (text.toList.take maxLength)

end AuthStartpack
