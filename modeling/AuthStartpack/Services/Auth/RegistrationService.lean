import AuthStartpack.Services.Audit
import AuthStartpack.Services.Tokens.VerificationTokens

/-!
Owns `RegistrationService`. A registration answers alike whether the address is
free or not, also when it is taken between the check and the save.
-/

namespace AuthStartpack

structure RegisterRequest where
  email : String
  password : String
  displayName : Option String := none

structure RegisterResponse where
  message : String
deriving DecidableEq, Repr

/-- The rule of `RegisterRequestValidator` on the display name. -/
def RegisterRequestValidator.displayNameFits (request : RegisterRequest) : Prop :=
  ∀ name ∈ request.displayName, name.length ≤ 100

instance (request : RegisterRequest) :
    Decidable (RegisterRequestValidator.displayNameFits request) :=
  inferInstanceAs (Decidable (∀ name ∈ request.displayName, name.length ≤ 100))

/-- A request without U+0000, which the validator lets pass and PostgreSQL refuses. -/
def RegisterRequest.Storable (request : RegisterRequest) : Prop :=
  storable request.email = true ∧ ∀ name ∈ request.displayName, storable name = true

instance (request : RegisterRequest) : Decidable request.Storable :=
  inferInstanceAs (Decidable (_ ∧ _))

namespace RegistrationService

def emailTokenLifetime : Duration := 24 * 3600 * ticksPerSecond

def resetTokenLifetime : Duration := 3600 * ticksPerSecond

def acceptedResponse : RegisterResponse where
  message := "If the address can be registered, verification instructions will be sent."

def isDuplicateEmail (exception : AppException) : Bool := exception = .dbUpdate "IX_Users_Email"

def handleExistingAsync (services : Services) (existing : User) : Action RegisterResponse := do
  let resetToken ←
    VerificationTokens.store services (some existing.id) .passwordReset resetTokenLifetime
      fun token => [.verificationTokenIssued token]
  Action.queueEmailReporting
    { recipient := existing.email
      subject := "Someone tried to register your email address"
      template := "RegistrationAttempt"
      values := [("Token", resetToken.value)] }
  return acceptedResponse

def addUser (lower : String → String) (user : User) (token : VerificationToken) (now : Instant)
    (db : Db) : Except AppException Db := do
  checkText 100 user.displayName
  let db ← db.insertUser now lower user
  let db ← db.insertUserRole now { userId := user.id, roleId := RoleSeed.userRoleId }
  db.insertVerificationToken now token

/-- The registration of an address that was free, with the new rows. -/
def createAsync (services : Services) (http : HttpContext) (user : User) (token : VerificationToken)
    (plaintext : String) : Action RegisterResponse := do
  let raced ← tryCatch (do
      Action.saveChanges (addUser services.lower user token)
        fun _ => [.userRegistered user, .verificationTokenIssued token]
      return false) fun exception =>
    if isDuplicateEmail exception then pure true else throw exception
  if raced then
    let existing ← Action.queryOrThrow fun db =>
      Action.single (db.users.filter (sameEmail services.lower ·.email user.email))
    handleExistingAsync services existing
  else
    AuditLogger.logAsync http .userRegistered (some user.id)
    Action.queueEmailReporting
      { recipient := user.email
        subject := "Verify your email address"
        template := "EmailVerification"
        values := [("Token", plaintext)] }
    return acceptedResponse

def registerAsync (services : Services) (http : HttpContext) (request : RegisterRequest) :
    Action RegisterResponse := do
  let email := trim request.email
  let passwordHash :=
    services.passwordHasher.hash request.password (← Action.drawReporting .passwordHashed)
  let existing ← Action.queryOrThrow fun db =>
    Action.singleOrDefault (db.users.filter (sameEmail services.lower ·.email email))
  match existing with
  | some user => handleExistingAsync services user
  | none =>
      let user : User :=
        { id := ← Action.draw
          email
          displayName := request.displayName.map trim
          passwordHash := some passwordHash
          securityStamp := ← Action.draw }
      let plaintext := services.tokenGenerator.newOpaqueToken (← Action.draw)
      let token : VerificationToken :=
        { id := ← Action.draw
          userId := some user.id
          type := .emailVerification
          tokenHash := services.tokenGenerator.hash plaintext
          expiresAt := (← Action.utcNow) + emailTokenLifetime }
      createAsync services http user token plaintext

end RegistrationService

end AuthStartpack
