import AuthStartpack.Services.Auth.EmailVerificationService
import AuthStartpack.Services.Auth.LoginService
import AuthStartpack.Services.Auth.PasswordResetService
import AuthStartpack.Services.Auth.RefreshService
import AuthStartpack.Services.Auth.RegistrationService
import AuthStartpack.Services.Cleanup
import AuthStartpack.Services.Passkeys.PasskeyService
import AuthStartpack.Services.Sessions.SessionQueryService
import AuthStartpack.Services.SocialAuth.SocialAuthService
import AuthStartpack.Services.Users.AdminUserService

/-!
Owns the list of the operations that the endpoints and the cleanup worker call,
without their answers, and which of them need no authentication.
-/

namespace AuthStartpack

inductive ServiceOperation
  | register (http : HttpContext) (request : RegisterRequest)
  | login (http : HttpContext) (email password : String)
  | completeMfa (http : HttpContext) (mfaTicket code : String)
  | refresh (http : HttpContext) (cookieToken bodyToken : Option String)
  | logout (http : HttpContext) (userId sessionId : Guid)
  | sendVerification (userId : Guid)
  | confirmEmail (http : HttpContext) (token : String)
  | requestReset (http : HttpContext) (email : String)
  | confirmReset (http : HttpContext) (token newPassword : String)
  | updateProfile (userId : Guid) (displayName : Option String)
  | changePassword (http : HttpContext) (userId currentSessionId : Guid)
      (currentPassword newPassword : String)
  | deleteAccount (userId : Guid)
  | unlink (userId accountId : Guid)
  | socialAuthorize (host : SocialHost) (provider : String)
  | socialCallback (host : SocialHost) (http : HttpContext) (answers : ProviderAnswers)
      (provider : String) (query : SocialCallbackQuery)
  | passkeyRegistrationOptions (userId : Guid)
  | passkeyRegistration (userId : Guid) (request : AuthenticatorResponse) (label : Option String)
  | passkeyRemoval (userId : Guid) (credentialId : Option String)
  | passkeyAuthenticationOptions
  | passkeyAuthentication (http : HttpContext) (request : AuthenticatorResponse)
  | enrollTotp (userId : Guid)
  | confirmTotp (userId : Guid) (code : String)
  | disableTotp (http : HttpContext) (userId : Guid)
  | regenerateRecoveryCodes (userId : Guid)
  | revokeSession (http : HttpContext) (userId sessionId : Guid)
  | revokeOtherSessions (http : HttpContext) (userId currentSessionId : Guid)
  | adminUpdate (userId : Guid) (request : AdminUpdateUserRequest)
  | adminDelete (http : HttpContext) (userId : Guid)
  | adminRevokeSessions (userId : Guid)
  | cleanup

namespace ServiceOperation

def program (services : Services) (fido2 : Fido2) : ServiceOperation → Action Unit
  | register http request => do let _ ← RegistrationService.registerAsync services http request
  | login http email password => do let _ ← LoginService.loginAsync services http email password
  | completeMfa http mfaTicket code => do
      let _ ← LoginService.completeMfaAsync services http mfaTicket code
  | refresh http cookieToken bodyToken => do
      let _ ← RefreshService.refreshAsync services http cookieToken bodyToken
  | logout http userId sessionId => LogoutService.logoutAsync http userId sessionId
  | sendVerification userId => EmailVerificationService.sendAsync services userId
  | confirmEmail http token => do
      let _ ← EmailVerificationService.confirmAsync services http token
  | requestReset http email => PasswordResetService.requestAsync services http email
  | confirmReset http token newPassword =>
      PasswordResetService.confirmAsync services http token newPassword
  | updateProfile userId displayName => do
      let _ ← UserService.updateProfileAsync userId displayName
  | changePassword http userId currentSessionId currentPassword newPassword =>
      UserService.changePasswordAsync services http userId currentSessionId
        currentPassword newPassword
  | deleteAccount userId => UserService.deleteAccountAsync userId
  | unlink userId accountId => UserService.unlinkAccountAsync userId accountId
  | socialAuthorize host provider => do
      let _ ← SocialAuthService.authorizeAsync services host provider
  | socialCallback host http answers provider query => do
      let _ ← SocialAuthService.callbackAsync services host http answers provider query
  | passkeyRegistrationOptions userId => do
      let _ ← PasskeyService.registrationOptionsAsync services userId
  | passkeyRegistration userId request label => do
      let _ ← PasskeyService.completeRegistrationAsync services fido2 userId request label
  | passkeyRemoval userId credentialId => PasskeyService.removeAsync userId credentialId
  | passkeyAuthenticationOptions => do
      let _ ← PasskeyService.authenticationOptionsAsync services
  | passkeyAuthentication http request => do
      let _ ← PasskeyService.completeAuthenticationAsync services fido2 http request
  | enrollTotp userId => do let _ ← TotpService.enrollAsync services userId
  | confirmTotp userId code => do let _ ← TotpService.confirmAsync services userId code
  | disableTotp http userId => TotpService.disableAsync http userId
  | regenerateRecoveryCodes userId => do
      let _ ← TotpService.regenerateRecoveryCodesAsync services userId
  | revokeSession http userId sessionId => SessionQueryService.revokeAsync http userId sessionId
  | revokeOtherSessions http userId currentSessionId => do
      let _ ← SessionQueryService.revokeAllOthersAsync http userId currentSessionId
  | adminUpdate userId request => do let _ ← AdminUserService.updateAsync userId request
  | adminDelete http userId => AdminUserService.deleteAsync http userId
  | adminRevokeSessions userId => do let _ ← AdminSessionService.revokeAllAsync userId
  | cleanup => ExpiredAuthArtifactCleanupService.cleanupOnceAsync services

/-- The endpoints with `AllowAnonymous`. -/
def anonymous : ServiceOperation → Bool
  | register .. | login .. | completeMfa .. | refresh .. | confirmEmail .. | requestReset .. |
    confirmReset .. | socialAuthorize .. | socialCallback .. | passkeyAuthenticationOptions |
    passkeyAuthentication .. => true
  | _ => false

end ServiceOperation

end AuthStartpack
