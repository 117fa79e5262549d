import AuthStartpack.Encoding.Splitting
import AuthStartpack.Handlers.SchemeSelector

/-!
Owns `ApiKeyAuthenticationHandler`: reading a key from the `Authorization` header,
and the lookup of its prefix and the verification of its secret.
-/

namespace AuthStartpack

/-- `text.StartsWith(start, StringComparison.OrdinalIgnoreCase)` -/
def startsWithIgnoreCase (start text : String) : Bool :=
  ClaimsPrincipal.equalsIgnoreCase start (String.ofList (text.toList.take start.toList.length))

inductive AuthenticateResult
  | noResult
  | fail (failureMessage : String)
  | success (principal : ClaimsPrincipal)
deriving DecidableEq, Repr

namespace ApiKeyAuthenticationHandler

/-- The text of a presented key, after the name of the scheme where that is given. -/
def tryReadCredential (request : HttpRequest) : Option String :=
  let header := request.header "Authorization"
  if header = "" then none
  else
    let value :=
      if startsWithIgnoreCase (schemeName ++ " ") header then
        String.ofList (header.toList.drop (schemeName.toList.length + 1))
      else header
    if keyMarker.toList <+: value.toList then some (trim value) else none

/-- The row with this prefix. -/
def findKey (keyPrefix : String) (db : Db) : Except AppException (Option ApiKey) :=
  Action.singleOrDefault (db.apiKeys.filter (·.keyPrefix = keyPrefix))

/-- The key is revoked or expired. -/
def IsDead (now : Instant) (key : ApiKey) : Prop :=
  key.revokedAt.isSome = true ∨ ∃ expiresAt, key.expiresAt = some expiresAt ∧ expiresAt ≤ now

instance (now : Instant) (key : ApiKey) : Decidable (IsDead now key) :=
  decidable_of_iff (key.revokedAt.isSome = true ∨ key.expiresAt.any (· ≤ now) = true) (by
    simp [IsDead, Option.any_eq_true])

def handleAuthenticateAsync (services : Services) (request : HttpRequest) :
    Action AuthenticateResult :=
  match tryReadCredential request with
  | none => return .noResult
  | some presented =>
      match splitAtMost '_' 3 presented with
      | [_, keyPrefix, secret] => do
          let now ← Action.utcNow
          match ← Action.queryOrThrow (findKey keyPrefix) with
          | none => return .fail "Invalid API key."
          | some key =>
              if IsDead now key then
                return .fail "Invalid API key."
              else if !services.passwordHasher.verify secret key.keyHash then
                return .fail "Invalid API key."
              else
                let _ ← Action.execute (fun db => db.apiKeys.countP (·.id = key.id))
                  (fun db => { db with
                    apiKeys := Table.updateWhere (·.id = key.id) ({ · with lastUsedAt := some now })
                      db.apiKeys })
                  fun _ => []
                let roles ← Action.query fun db => db.roleNames key.userId
                return .success (principal key roles)
      | _ => return .fail "Malformed API key."

end ApiKeyAuthenticationHandler

end AuthStartpack
