import AuthStartpack.Program.Core
import AuthStartpack.Program.Account
import AuthStartpack.Program.Logic
import AuthStartpack.Program.Pool
import AuthStartpack.Program.Moments
import AuthStartpack.Program.AtMostOnce
import AuthStartpack.Program.Faults
import AuthStartpack.Program.Ownership
import AuthStartpack.Program.Sequential
import AuthStartpack.Program.Returns
import AuthStartpack.Program.Serial
import AuthStartpack.Table.Paging
import AuthStartpack.Table.Rows
import AuthStartpack.Data.Entities
import AuthStartpack.Data.Database
import AuthStartpack.Data.Actions
import AuthStartpack.Data.Quiet
import AuthStartpack.Data.Keeps
import AuthStartpack.Data.Alone
import AuthStartpack.Data.ChangeTracker
import AuthStartpack.Data.Frame
import AuthStartpack.Handlers.RolePermissionMap
import AuthStartpack.Services.Dependencies
import AuthStartpack.Services.Audit
import AuthStartpack.Services.Tokens.AccessTokenIssuer
import AuthStartpack.Services.Tokens.RefreshTokenService
import AuthStartpack.Services.ApiKeys.ApiKeyService
import AuthStartpack.Encoding.JsonNode
import AuthStartpack.Encoding.Casing
import AuthStartpack.Logging.SensitiveFieldNames
import AuthStartpack.Services.Audit.AuditMetadataSerializer
import AuthStartpack.Encoding.Splitting
import AuthStartpack.Handlers.ClaimsPrincipal
import AuthStartpack.Validators.Common.PaginationRules
import AuthStartpack.Helpers.PagedQueryExtensions
import AuthStartpack.Validators.Admin.ListQueryValidators
import AuthStartpack.Services.Audit.AuditQueryService
import AuthStartpack.Handlers.HttpRequest
import AuthStartpack.Services.Auth.RefreshService
import AuthStartpack.Services.Auth.AuthTokenTransport
import AuthStartpack.Services.Tokens.SessionService
import AuthStartpack.Services.Auth.AuthenticationSessionFactory
import AuthStartpack.Services.Tokens.VerificationTokens
import AuthStartpack.Services.Auth.EmailVerificationService
import AuthStartpack.Services.Mfa.TotpService
import AuthStartpack.Services.Security.LockoutPolicy
import AuthStartpack.Services.Tokens.MfaTicketService
import AuthStartpack.Services.Auth.LoginService
import AuthStartpack.Services.Auth.PasswordResetService
import AuthStartpack.Services.Auth.RegistrationService
import AuthStartpack.Services.Caching.HybridCache
import AuthStartpack.Services.Cleanup
import AuthStartpack.Encoding.DecimalInteger
import AuthStartpack.Services.Crypto.Argon2PasswordHasher
import AuthStartpack.Services.Frames
import AuthStartpack.Services.FreshKeys
import AuthStartpack.Refresh.Rotation
import AuthStartpack.Services.Issuance
import AuthStartpack.Services.Passkeys.PasskeyService
import AuthStartpack.Services.Sessions.SessionQueryService
import AuthStartpack.Services.SocialAuth.SocialAuthService
import AuthStartpack.Services.OperationFrames
import AuthStartpack.Services.Users.UserService
import AuthStartpack.Services.Users.AdminUserService
import AuthStartpack.Services.Operations
import AuthStartpack.Redis.Commands
import AuthStartpack.Services.RateLimiting.RedisRateLimitStore
import AuthStartpack.Encoding.Base64Url
import AuthStartpack.Services.Security.CsrfTokenService
import AuthStartpack.Services.Tokens.SigningKeyManager
import AuthStartpack.Services.Tokens.SignedAccessToken
import AuthStartpack.Login.Failures
import AuthStartpack.Services.UserFrames
import AuthStartpack.Services.Users.AdminRoleService
import AuthStartpack.Services.Users.AdminUserList
import AuthStartpack.SocialAuth.Takeover
import AuthStartpack.Tokens.Consumption
import AuthStartpack.SocialAuth.Completion
import AuthStartpack.Tokens.Frames
import AuthStartpack.Tokens.Reread
import AuthStartpack.Refresh.Uninterrupted
import AuthStartpack.Sessions.Ledger
import AuthStartpack.Sessions.Refinement
import AuthStartpack.Sessions.ReuseDetection
import AuthStartpack.Sessions.Chain
import AuthStartpack.Refresh.Tracking
import AuthStartpack.Sessions.Finality
import AuthStartpack.Sessions.RevokedOnce
import AuthStartpack.Handlers.RecentAuthAuthorizationHandler
import AuthStartpack.Mfa.TotpOperations
import AuthStartpack.Sessions.StepUp
import AuthStartpack.Mfa.CodeReplacement
import AuthStartpack.Mfa.HighWaterMarks
import AuthStartpack.Mfa.ProvedSecrets
import AuthStartpack.Mfa.RecoveryCodes
import AuthStartpack.Mfa.Replay
import AuthStartpack.Exceptions.ExceptionToProblemDetailsMap
import AuthStartpack.Refresh.Retry
import AuthStartpack.Refresh.Indistinguishable
import AuthStartpack.Refresh.SingleUse
import AuthStartpack.Refresh.Transparency
import AuthStartpack.Refresh.Transport
import AuthStartpack.Login.Acceptance
import AuthStartpack.Login.Lockout
import AuthStartpack.Login.LockoutHistory
import AuthStartpack.Login.Rehash
import AuthStartpack.Keys.Ring
import AuthStartpack.Keys.Agreement
import AuthStartpack.Keys.Aging
import AuthStartpack.Keys.SignedTokens
import AuthStartpack.Keys.Interleavings
import AuthStartpack.Configuration.ApiCorsOptions
import AuthStartpack.Configuration.Validation.JwtOptionsValidator
import AuthStartpack.Filters.CsrfProtectionFilter
import AuthStartpack.Handlers.ConfigureJwtBearerOptions
import AuthStartpack.Keys.Lifetimes
import AuthStartpack.Passkeys.SignatureCounter
import AuthStartpack.SocialAuth.Callbacks
import AuthStartpack.Registration.Accounting
import AuthStartpack.Registration.DrawnKeys
import AuthStartpack.Registration.Convergence
import AuthStartpack.Users.Paging
import AuthStartpack.Users.PageOffsets
import AuthStartpack.Validators.Common.PasswordRules
import AuthStartpack.Validators.Users.PasswordRequestValidators
import AuthStartpack.Users.PasswordPolicy
import AuthStartpack.Users.SignInMethods
import AuthStartpack.Users.Sorting
import AuthStartpack.Recovery.Unambiguous
import AuthStartpack.Recovery.Unverifiable
import AuthStartpack.Recovery.Recoverable
import AuthStartpack.Recovery.Accounts
import AuthStartpack.Handlers.SchemeSelector
import AuthStartpack.Handlers.ApiKeyAuthenticationHandler
import AuthStartpack.Handlers.PermissionAuthorizationHandler
import AuthStartpack.ApiKeys.Authority
import AuthStartpack.ApiKeys.RoundTrip
import AuthStartpack.Encoding.Base32
import AuthStartpack.Encoding.OneTimePassword
import AuthStartpack.Encoding.ShellWords
import AuthStartpack.Filters.CsrfTokens
import AuthStartpack.Handlers.OriginAwareCorsPolicyProvider
import AuthStartpack.RateLimiting.History
import AuthStartpack.RateLimiting.FixedWindow
import AuthStartpack.RateLimiting.SlidingWindow
import AuthStartpack.RateLimiting.RetryAfter
import AuthStartpack.SignIn.Sessions
import AuthStartpack.SignIn.OneSession
import AuthStartpack.SignIn.Hashes
import AuthStartpack.SignIn.Tickets
import AuthStartpack.SignIn.Provenance
import AuthStartpack.SignIn.Password
import AuthStartpack.SignIn.Evidence
import AuthStartpack.SignIn.Providers
import AuthStartpack.SignIn.SecondFactor
import AuthStartpack.SignIn.Authenticated
import AuthStartpack.Validators.Common.PredictablePatterns
import AuthStartpack.Workbench.Curl
import AuthStartpack.Workbench.Totp
