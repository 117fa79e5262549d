import AuthStartpack.Data.Database

/-!
Owns `ExceptionToProblemDetailsMap`: the status, the code and the title by which
an exception is answered, and the message of a domain exception, which goes to
the caller as the detail.
-/

namespace AuthStartpack

/-- The code and the message of a `DomainException`. -/
def AppException.domain? : AppException → Option (String × String)
  | .invalidCredentials => some ("invalid_credentials", "Invalid email or password.")
  | .invalidToken => some ("invalid_token", "The token is invalid or has expired.")
  | .tokenReuseDetected _ => some ("token_reuse_detected", "The session has been revoked.")
  | .resourceNotFound resource => some ("not_found", s!"The requested {resource} was not found.")
  | .conflict code message => some (code, message)
  | .forbiddenOperation => some ("forbidden", "The operation is not permitted.")
  | .unsupportedProvider =>
      some ("unsupported_provider", "The social authentication provider is not supported.")
  | .accountLocked _ => some ("account_locked", "The account is temporarily locked.")
  | .emailAlreadyRegistered =>
      some ("email_already_registered", "That email address is already registered.")
  | _ => none

structure ProblemDetails where
  status : ℕ
  title : String
  type : String
  detail : Option String
  errorCode : String
deriving DecidableEq, Repr

/-- `ProblemTypes.For` -/
def problemType (errorCode : String) : String := "/errors/" ++ errorCode

namespace ExceptionToProblemDetailsMap

/-- Status, code and title. -/
def map : AppException → ℕ × String × String
  | .invalidCredentials => (401, "invalid_credentials", "Authentication failed.")
  | .accountLocked _ => (401, "invalid_credentials", "Authentication failed.")
  | .tokenReuseDetected _ => (401, "invalid_credentials", "Authentication failed.")
  | .invalidToken => (400, "invalid_token", "The token is invalid.")
  | .forbiddenOperation => (403, "forbidden", "Forbidden.")
  | .unsupportedProvider => (400, "unsupported_provider", "Unsupported provider.")
  | .resourceNotFound _ => (404, "not_found", "Not found.")
  | .emailAlreadyRegistered => (409, "email_already_registered", "Conflict.")
  | .conflict code _ => (409, code, "Conflict.")
  | .operationCanceled => (499, "request_cancelled", "The request was cancelled.")
  | .badHttpRequest statusCode =>
      if statusCode = 413 then (413, "payload_too_large", "The request body is too large.")
      else (400, "malformed_request", "The request could not be read.")
  | _ => (500, "internal_error", "An unexpected error occurred.")

/-- `message` is the text of an exception that is not a domain exception. -/
def toProblemDetails (message : AppException → String) (exception : AppException)
    (includeDetail : Bool) : ProblemDetails :=
  let (status, errorCode, title) := map exception
  { status
    title
    type := problemType errorCode
    detail := match exception.domain? with
      | some (_, text) => some text
      | none => if includeDetail then some (message exception) else none
    errorCode }

end ExceptionToProblemDetailsMap

end AuthStartpack
