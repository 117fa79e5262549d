import AuthStartpack.Services.Tokens.VerificationTokens

/-! Owns `MfaTicketService`: the tickets that carry a login from the password to the second
factor. -/

namespace AuthStartpack

namespace MfaTicketService

def issueAsync (services : Services) (userId : Guid) : Action IssuedVerificationToken :=
  VerificationTokens.store services (some userId) .mfaChallenge
    services.sessionOptions.mfaTicketLifetime

def consumeAsync (services : Services) (presentedTicket : String) : Action (Option Guid) := do
  let hash := services.tokenGenerator.hash presentedTicket
  let now ← Action.utcNow
  let consumed ← VerificationTokens.consume hash .mfaChallenge now (fun _ => true) .mfaTicket
  if consumed = 0 then return none
  else VerificationTokens.userOf hash

end MfaTicketService

end AuthStartpack
