import AuthStartpack.Data.Entities
import AuthStartpack.Encoding.Base64Url

/-!
Owns `CsrfTokenService`. The data protector is ideal authenticated encryption
with a time limit: it takes off exactly the protections that it has put on, until
the limit has passed, and no two of its tags are equal.
-/

namespace AuthStartpack

/-- What the data protector was given to protect, with the tag that it made of it. -/
structure CsrfProtection where
  payload : String
  expiresAt : Instant
  tag : List UInt8
deriving DecidableEq, Repr

/-- A call of `Issue`: its argument, the clock it read, the bytes it drew, and the tag that the data
protector answered. -/
structure CsrfIssueCall where
  sessionId : Guid
  now : Instant
  nonce : List UInt8
  tag : List UInt8
deriving DecidableEq, Repr

/-- `WebEncoders.Base64UrlDecode`, which fails on malformed text. -/
structure Base64UrlDecoder where
  decode : String → Option (List UInt8)
  decode_encode : ∀ bytes, decode (Base64Url.encode bytes) = some bytes

namespace CsrfTokenService

/-- The authenticated payload. -/
def payload (sessionId : Guid) (nonce : String) : String := sessionId.repr ++ ":" ++ nonce

/-- `Issue`: the token that it returns, and what it has had protected. -/
def issue (lifetime : Duration) (call : CsrfIssueCall) : String × CsrfProtection :=
  let nonce := Base64Url.encode call.nonce
  let protection : CsrfProtection :=
    { payload := payload call.sessionId nonce
      expiresAt := call.now + lifetime
      tag := call.tag }
  (nonce ++ "." ++ Base64Url.encode protection.tag, protection)

/-- `Unprotect`, which fails on a tag that the protector did not produce or whose limit has
passed. -/
def unprotect (protections : List CsrfProtection) (now : Instant) (tag : List UInt8) :
    Option String :=
  ((protections.find? (·.tag = tag)).filter (now ≤ ·.expiresAt)).map CsrfProtection.payload

def validate (decoder : Base64UrlDecoder) (protections : List CsrfProtection) (now : Instant)
    (token : String) (sessionId : Guid) : Bool :=
  if token = "" then false
  else
    let separator := token.toList.idxOf '.'
    -- `IndexOf` answers -1 where there is no separator.
    if separator = token.toList.length ∨ separator = 0 ∨ separator = token.toList.length - 1 then
      false
    else
      let nonce := String.ofList (token.toList.take separator)
      let tag := String.ofList (token.toList.drop (separator + 1))
      match (decoder.decode tag).bind (unprotect protections now) with
      | none => false
      | some unprotected => unprotected = payload sessionId nonce

end CsrfTokenService

/-- The calls of `Issue` so far. A nonce has 32 bytes, a tag is not empty and stands for one
token. -/
structure CsrfIssued where
  calls : List CsrfIssueCall
  nonces : ∀ call ∈ calls, call.nonce.length = 32
  tags : ∀ call ∈ calls, call.tag ≠ []
  distinct : (calls.map CsrfIssueCall.tag).Nodup

/-- What they have had protected. -/
def CsrfIssued.protections (issued : CsrfIssued) (lifetime : Duration) : List CsrfProtection :=
  issued.calls.map fun call => (CsrfTokenService.issue lifetime call).2

end AuthStartpack
