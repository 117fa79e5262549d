import AuthStartpack.Services.Auth.AuthenticationSessionFactory
import AuthStartpack.Services.Tokens.VerificationTokens

/-!
Owns `SocialAuthService`: the redirect to a provider and the callback, which
consumes the state, asks the provider for the identity and signs in the user
that is linked to it, or a new one. What the endpoints of the providers answer
is given.
-/

namespace AuthStartpack

structure SocialProvider where
  enabled : Bool := false
  clientId : Option String := none
  clientSecret : Option String := none

structure SocialProviderOptions where
  demoMode : Bool := false
  google : SocialProvider := {}
  gitHub : SocialProvider := {}

structure GoogleProfile where
  subject : String
  email : Option String
  emailVerified : Bool
  name : Option String

structure GitHubProfile where
  id : ℤ
  login : String
  name : Option String

structure GitHubEmail where
  email : String
  primary : Bool
  verified : Bool

/-- What an HTTP request to a provider comes to. `empty` is the content `null`. -/
inductive Answer (α : Type)
  | failed
  | empty
  | content (value : α)

/-- What the endpoints of the providers answer: the access token for a code, and what is behind an
access token. -/
structure ProviderAnswers where
  token : String → Answer String
  googleProfile : String → Answer GoogleProfile
  gitHubProfile : String → Answer GitHubProfile
  gitHubEmails : String → Answer (List GitHubEmail)

structure SocialIdentity where
  subject : String
  email : Option String
  emailVerified : Bool
  displayName : Option String
deriving DecidableEq, Repr

structure SocialCallbackQuery where
  code : Option String := none
  state : Option String := none
  error : Option String := none

structure SocialAuthorizeResponse where
  authorizationUrl : String
  expiresAt : Instant
deriving DecidableEq, Repr

/-- The host, its options and the origin under which it is reached. -/
structure SocialHost where
  isDevelopment : Bool := false
  options : SocialProviderOptions
  origin : String

namespace SocialAuthService

def stateLifetime : Duration := 600 * ticksPerSecond

def demoMode (host : SocialHost) : Bool := host.isDevelopment && host.options.demoMode

/-- `string.ToLowerInvariant()`, of ASCII letters: no other character becomes one of the names. -/
def toLowerInvariant (text : String) : String := String.ofList (text.toList.map Char.toLower)

@[irreducible]
def normalizeProvider (provider : String) : Except AppException String :=
  let normalized := toLowerInvariant (trim provider)
  if normalized = "google" ∨ normalized = "github" then .ok normalized
  else .error .unsupportedProvider

/-- The enabled configuration of this provider. -/
def provider (host : SocialHost) (name : String) : Except AppException SocialProvider :=
  let selected := if name = "google" then host.options.google else host.options.gitHub
  if !selected.enabled || isNullOrWhiteSpace selected.clientId ||
      isNullOrWhiteSpace selected.clientSecret then
    .error .unsupportedProvider
  else .ok selected

def callbackUri (host : SocialHost) (name : String) : String :=
  s!"{host.origin}/api/v1/auth/social/{name}/callback"

/-! ### The redirect -/

def authorizationUrl (host : SocialHost) (name state : String) : Except AppException String :=
  let callback := callbackUri host name
  if demoMode host then
    let code := if name = "google" then "demo-google-ada" else "demo-github-linus"
    .ok (callback ++ s!"?code={escapeDataString code}" ++ s!"&state={escapeDataString state}")
  else do
    let configuration ← provider host name
    let clientId := escapeDataString (configuration.clientId.getD "")
    if name = "google" then
      return "https://accounts.google.com/o/oauth2/v2/auth" ++ s!"?client_id={clientId}" ++
        s!"&redirect_uri={escapeDataString callback}" ++
        "&response_type=code&scope=openid%20email%20profile" ++ s!"&state={escapeDataString state}"
    else
      return "https://github.com/login/oauth/authorize" ++ s!"?client_id={clientId}" ++
        s!"&redirect_uri={escapeDataString callback}" ++ "&scope=read%3Auser%20user%3Aemail" ++
        s!"&state={escapeDataString state}"

def authorizeAsync (services : Services) (host : SocialHost) (provider : String) :
    Action SocialAuthorizeResponse := do
  let normalized ← Program.done (normalizeProvider provider)
  let state ← VerificationTokens.store services none .socialAuthorizationState stateLifetime
  let authorizationUrl ← Program.done (authorizationUrl host normalized state.value)
  return { authorizationUrl, expiresAt := state.expiresAt }

/-! ### The identity -/

/-- `?? throw new InvalidTokenException()` -/
def answered {α : Type} : Answer α → Except AppException α
  | .failed => .error .httpRequest
  | .empty => .error .invalidToken
  | .content value => .ok value

/-- `?? []` -/
def answeredList {α : Type} : Answer (List α) → Except AppException (List α)
  | .failed => .error .httpRequest
  | .empty => .ok []
  | .content values => .ok values

def demoIdentity (name code : String) : Except AppException SocialIdentity :=
  if name = "google" ∧ code = "demo-google-ada" then
    .ok ⟨"development-google-ada", some "ada.google@demo.local", true, some "Ada Google"⟩
  else if name = "github" ∧ code = "demo-github-linus" then
    .ok ⟨"development-github-linus", some "linus.github@demo.local", true, some "Linus GitHub"⟩
  else .error .invalidToken

def getGoogleIdentityAsync (host : SocialHost) (answers : ProviderAnswers) (code : String) :
    Except AppException SocialIdentity := do
  let _ ← provider host "google"
  let token ← answered (answers.token code)
  let profile ← answered (answers.googleProfile token)
  return ⟨profile.subject, profile.email, profile.emailVerified, profile.name⟩

def getGitHubIdentityAsync (host : SocialHost) (answers : ProviderAnswers) (code : String) :
    Except AppException SocialIdentity := do
  let _ ← provider host "github"
  let token ← answered (answers.token code)
  let profile ← answered (answers.gitHubProfile token)
  let emails ← answeredList (answers.gitHubEmails token)
  let email := emails.find? fun candidate => candidate.primary && candidate.verified
  return ⟨toString profile.id, email.map (·.email), email.isSome,
    some (profile.name.getD profile.login)⟩

def identityOf (host : SocialHost) (answers : ProviderAnswers) (name code : String) :
    Except AppException SocialIdentity :=
  if demoMode host then demoIdentity name code
  else if name = "google" then getGoogleIdentityAsync host answers code
  else getGitHubIdentityAsync host answers code

/-! ### The callback -/

def consumeStateAsync (services : Services) (state : String) : Action Unit := do
  let hash := services.tokenGenerator.hash state
  let now ← Action.utcNow
  let consumed ←
    VerificationTokens.consume hash .socialAuthorizationState now (fun _ => true) .socialState
  if consumed = 0 then
    throw .invalidToken

/-- The users that an account of the provider with this subject is linked to (`Include`). -/
def linkedUsers (name subject : String) (db : Db) : List User :=
  (db.accounts.filter fun account =>
    account.provider = name && account.providerAccountId = subject).flatMap fun account =>
      db.users.filter (·.id = account.userId)

def canUseProviderEmail (services : Services) (email : Option String) : Action Bool :=
  if isNullOrWhiteSpace email then pure false
  else Action.query fun db => !db.users.any (sameEmail services.lower ·.email (email.getD ""))

def placeholderEmail (name subject : String) : String := s!"{name}-{subject}@invalid.local"

/-- The columns `DisplayName` and `ProviderAccountId` are the ones that the values of a provider can
exceed. -/
def addLinkedUser (lower : String → String) (user : User) (account : Account) (now : Instant)
    (db : Db) : Except AppException Db := do
  checkText 100 user.displayName
  let db ← db.insertUser now lower user
  let db ← db.insertUserRole now { userId := user.id, roleId := RoleSeed.userRoleId }
  checkText 256 (some account.providerAccountId)
  db.insertAccount now account

/-- The new user of an identity. `linked` is the user that it was found to be linked to. -/
def createUserAsync (services : Services) (linked : Option Guid) (name : String)
    (identity : SocialIdentity) : Action User := do
  let usable ← canUseProviderEmail services identity.email
  let user : User :=
    { id := ← Action.draw
      email := if usable then identity.email.getD "" else placeholderEmail name identity.subject
      emailVerified := usable && identity.emailVerified
      displayName := identity.displayName
      securityStamp := ← Action.draw }
  let account : Account :=
    { id := ← Action.draw
      userId := user.id
      provider := name
      providerAccountId := identity.subject }
  let asked := if isNullOrWhiteSpace identity.email then none else
    some (identity.email.getD "", usable)
  Action.attemptChanges (addLinkedUser services.lower user account)
    [.socialSignUp user account { linked, asked }]
  return user

def methodOf (name : String) : AuthenticationMethod := if name = "google" then .google else .gitHub

/-- The linked user, or else a new one. -/
def resolveUserAsync (services : Services) (http : HttpContext) (name : String)
    (identity : SocialIdentity) : Action User := do
  let linked ← Action.queryOrThrow fun db =>
    Action.singleOrDefault (linkedUsers name identity.subject db)
  match linked with
  | some user => return user
  | none =>
      let user ← createUserAsync services (linked.map (·.id)) name identity
      AuditLogger.logAsync http .userRegistered (some user.id)
      return user

/-- The sign-in of an identity that the provider has returned. -/
def signInAsync (services : Services) (http : HttpContext) (name : String)
    (identity : SocialIdentity) : Action LoginResponse := do
  let user ← resolveUserAsync services http name identity
  let response ← AuthenticationSessionFactory.createAsync services http user.id [methodOf name]
  AuditLogger.logAsync http .loginSucceeded (some user.id)
  return response

def callbackAsync (services : Services) (host : SocialHost) (http : HttpContext)
    (answers : ProviderAnswers) (provider : String) (query : SocialCallbackQuery) :
    Action LoginResponse := do
  let normalized ← Program.done (normalizeProvider provider)
  if !isNullOrWhiteSpace query.error || isNullOrWhiteSpace query.code ||
      isNullOrWhiteSpace query.state then
    throw .invalidToken
  consumeStateAsync services (query.state.getD "")
  let identity ← Program.done (identityOf host answers normalized (query.code.getD ""))
  signInAsync services http normalized identity

end SocialAuthService

end AuthStartpack
