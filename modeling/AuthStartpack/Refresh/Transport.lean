import AuthStartpack.Program.Returns
import AuthStartpack.Services.Auth.AuthTokenTransport

/-!
Owns which of the presented refresh tokens is rotated and where its successor is
delivered. Two tokens that differ rotate nothing, and a pair goes either into
the body or into cookies. A token in the body counts where there is no cookie;
beside an empty cookie it is not read.
-/

namespace AuthStartpack.RefreshService

variable (services : Services) (http : HttpContext) (transport : TransportServices)
  (request : HttpRequest) (bodyToken : Option String)

/-- The refresh cookie of the request. -/
def refreshCookie : Option String := request.cookie transport.options.refreshCookieName

/-- The refresh hands this token to `RotateAsync`, answers by its result and delivers the pair. -/
def Rotates (token : String) : Prop :=
  deliveredRefreshAsync services http transport request bodyToken =
    RefreshTokenService.rotateAsync services http token >>= fun result =>
      answer result >>= fun pair =>
        pure (AuthTokenTransport.deliverRefresh transport request pair)

/-- The refresh reads and writes nothing. -/
def Refuses : Prop :=
  deliveredRefreshAsync services http transport request bodyToken = throw .invalidCredentials

/-- This is the only token among cookie and body that is not empty. -/
def OnlyPresents (token : String) : Prop :=
  token ≠ "" ∧ (refreshCookie transport request = some token ∨ bodyToken = some token) ∧
    (∀ other, refreshCookie transport request = some other → other = "" ∨ other = token) ∧
    ∀ other, bodyToken = some other → other = "" ∨ other = token

/-- Where a pair is delivered: in the body or in cookies, and not in the body if a cookie was
presented. -/
def DeliversOnce (delivered : DeliveredTokenPair) (accessToken refreshToken : String) : Prop :=
  (delivered.accessToken = some accessToken ∧ delivered.refreshToken = some refreshToken ∧
      delivered.cookies = [] ∧ refreshCookie transport request = none) ∨
    delivered.accessToken = none ∧ delivered.refreshToken = none ∧
      accessToken ∈ delivered.cookies.map (·.value) ∧
      refreshToken ∈ delivered.cookies.map (·.value)

/-- What the refresh returns is the pair of a rotation, delivered once. -/
structure DeliversRotated (delivered : DeliveredTokenPair) (result : RefreshResult)
    (access : IssuedAccessToken) (refresh : IssuedRefreshToken) : Prop where
  outcome : result.outcome = .rotated
  accessToken : result.accessToken = some access
  refreshToken : result.refreshToken = some refresh
  once : DeliversOnce transport request delivered (transport.serialize access.value) refresh.value

theorem deliverRefresh_once (pair : TokenPairResponse) :
    DeliversOnce transport request (AuthTokenTransport.deliverRefresh transport request pair)
      (transport.serialize pair.accessToken) pair.refreshToken := by
  unfold AuthTokenTransport.deliverRefresh
  cases uses : AuthTokenTransport.refreshUsesCookies transport request with
  | true =>
      refine .inr ⟨rfl, rfl, ?_, ?_⟩
      · exact .head _
      · exact .tail _ (.head _)
  | false =>
      refine .inl ⟨rfl, rfl, rfl, ?_⟩
      exact Option.not_isSome_iff_eq_none.mp
        (Bool.eq_false_iff.mp (Bool.or_eq_false_iff.mp uses).2)

theorem deliveredRefreshAsync_eq :
    deliveredRefreshAsync services http transport request bodyToken =
      match rotatedToken (refreshCookie transport request) bodyToken with
      | none => throw .invalidCredentials
      | some token => RefreshTokenService.rotateAsync services http token >>= fun result =>
          answer result >>= fun pair =>
            pure (AuthTokenTransport.deliverRefresh transport request pair) := by
  unfold deliveredRefreshAsync
  rw [refreshAsync_eq]
  change ((match rotatedToken (refreshCookie transport request) bodyToken with
    | none => throw AppException.invalidCredentials
    | some token => RefreshTokenService.rotateAsync services http token >>= answer) >>= _) = _
  cases rotatedToken (refreshCookie transport request) bodyToken with
  | none => rfl
  | some token => exact Program.bind_assoc _ _ _

variable {services http transport request bodyToken}

/-- The pair of an answer is that of the rotation. -/
theorem answer_returns {result : RefreshResult} {pair : TokenPairResponse}
    (returns : (answer result).Returns pair) :
    result.outcome = .rotated ∧
      (∃ access, result.accessToken = some access ∧ pair.accessToken = access.value) ∧
      ∃ refresh, result.refreshToken = some refresh ∧ pair.refreshToken = refresh.value := by
  unfold answer at returns
  split at returns
  case h_1 => exact absurd returns Program.not_returns_throw
  case h_2 rotated _ accessToken refreshToken =>
    rw [Program.returns_pure] at returns
    subst returns
    exact ⟨rotated, ⟨_, accessToken, rfl⟩, _, refreshToken, rfl⟩
  case h_3 => exact absurd returns Program.not_returns_throw

/-- Whatever a refresh returns is the pair of a rotation, delivered once. -/
theorem deliveredRefreshAsync_returns {delivered : DeliveredTokenPair}
    (returns :
      (deliveredRefreshAsync services http transport request bodyToken).Returns delivered) :
    ∃ token result access refresh,
      (RefreshTokenService.rotateAsync services http token).Returns result ∧
      DeliversRotated transport request delivered result access refresh := by
  rw [deliveredRefreshAsync_eq] at returns
  cases reads : rotatedToken (refreshCookie transport request) bodyToken with
  | none =>
      rw [reads] at returns
      exact absurd returns Program.not_returns_throw
  | some token =>
      simp only [reads, Program.returns_bind, Program.returns_pure] at returns
      obtain ⟨result, rotates, pair, answers, rfl⟩ := returns
      obtain ⟨outcome, ⟨access, accessToken, sameAccess⟩, refresh, refreshToken, sameRefresh⟩ :=
        answer_returns answers
      refine ⟨token, result, access, refresh, rotates, outcome, accessToken, refreshToken, ?_⟩
      rw [← sameAccess, ← sameRefresh]
      exact deliverRefresh_once transport request pair

theorem rotates_of_rotatedToken {token : String}
    (reads : rotatedToken (refreshCookie transport request) bodyToken = some token) :
    Rotates services http transport request bodyToken token := by
  rw [Rotates, deliveredRefreshAsync_eq, reads]

theorem refuses_of_rotatedToken
    (reads : rotatedToken (refreshCookie transport request) bodyToken = none) :
    Refuses services http transport request bodyToken := by
  rw [Refuses, deliveredRefreshAsync_eq, reads]

/-- A rotation begins with a step; the refusal takes none. -/
theorem Refuses.not_rotates (refuses : Refuses services http transport request bodyToken)
    (token : String) : ¬ Rotates services http transport request bodyToken token := by
  intro rotates
  rw [Refuses] at refuses
  rw [Rotates, refuses] at rotates
  cases rotates

/-- Two different tokens are no credential. -/
theorem rotatedToken_of_conflict {first second : String}
    (cookie : refreshCookie transport request = some first) (body : bodyToken = some second)
    (firstNonempty : first ≠ "") (secondNonempty : second ≠ "") (differ : first ≠ second) :
    rotatedToken (refreshCookie transport request) bodyToken = none := by
  unfold rotatedToken AuthTokenTransport.readRefreshToken
  rw [cookie, body]
  simp [firstNonempty, secondNonempty, differ]

/-- The only token is read unless it is in the body and the cookie is empty. -/
theorem rotatedToken_of_only {token : String}
    (only : OnlyPresents transport request bodyToken token) :
    rotatedToken (refreshCookie transport request) bodyToken =
      if refreshCookie transport request = some "" ∨
        isNullOrWhiteSpace (some token) = true then none
      else some token := by
  obtain ⟨nonempty, presented, inCookie, inBody⟩ := only
  cases cookie : refreshCookie transport request with
  | none =>
      have body : bodyToken = some token := by
        rcases presented with impossible | body
        · rw [cookie] at impossible
          cases impossible
        · exact body
      have read : AuthTokenTransport.readRefreshToken none bodyToken = some token := by
        rw [body]
        rfl
      unfold rotatedToken
      rw [read, Option.filter_some]
      cases isNullOrWhiteSpace (some token) <;> rfl
  | some value =>
      have agrees : bodyToken.any (· ≠ "") = true → bodyToken = some token := by
        cases body : bodyToken with
        | none => simp
        | some other => simpa using (inBody other body).resolve_left
      have read : AuthTokenTransport.readRefreshToken (some value) bodyToken = some value := by
        unfold AuthTokenTransport.readRefreshToken
        rcases inCookie value cookie with rfl | rfl
        · rfl
        · rw [if_neg]
          · rfl
          · simp only [Bool.and_eq_true, decide_eq_true_eq]
            exact fun conflict => conflict.2 (agrees conflict.1.2).symm
      unfold rotatedToken
      rw [read, Option.filter_some]
      rcases inCookie value cookie with rfl | rfl
      · rfl
      · cases isNullOrWhiteSpace (some value) with
        | true => simp
        | false => simp [nonempty]

/-- What the transport of a refresh promises. -/
def TransportsRefresh (services : Services) (http : HttpContext) (transport : TransportServices)
    (request : HttpRequest) (bodyToken : Option String) : Prop :=
  (∀ first second, refreshCookie transport request = some first → bodyToken = some second →
      first ≠ "" → second ≠ "" → first ≠ second →
      Refuses services http transport request bodyToken) ∧
    (∀ token, OnlyPresents transport request bodyToken token →
      Rotates services http transport request bodyToken token) ∧
    ∀ delivered,
      (deliveredRefreshAsync services http transport request bodyToken).Returns delivered →
        ∃ token result access refresh,
          (RefreshTokenService.rotateAsync services http token).Returns result ∧
            DeliversRotated transport request delivered result access refresh

/-- The transport keeps its promise just if the only token that is presented comes without an empty
cookie, and is not all white space. -/
theorem transportsRefresh_iff (services : Services) (http : HttpContext)
    (transport : TransportServices) (request : HttpRequest) (bodyToken : Option String) :
    TransportsRefresh services http transport request bodyToken ↔
      ∀ token, OnlyPresents transport request bodyToken token →
        refreshCookie transport request ≠ some "" ∧ isNullOrWhiteSpace (some token) = false := by
  constructor
  · rintro ⟨-, rotates, -⟩ token only
    have reads := rotatedToken_of_only only
    by_contra refused
    rw [if_pos] at reads
    · exact (refuses_of_rotatedToken reads).not_rotates token (rotates token only)
    · by_contra neither
      rw [not_or, Bool.not_eq_true] at neither
      exact refused neither
  · intro accepted
    refine ⟨?_, ?_, fun delivered => deliveredRefreshAsync_returns⟩
    · intro first second cookie body firstNonempty secondNonempty differ
      apply refuses_of_rotatedToken
      exact rotatedToken_of_conflict cookie body firstNonempty secondNonempty differ
    · intro token only
      obtain ⟨cookie, written⟩ := accepted token only
      apply rotates_of_rotatedToken
      rw [rotatedToken_of_only only, if_neg]
      rw [not_or, Bool.not_eq_true]
      exact ⟨cookie, written⟩

/-- A token in the body beside a refresh cookie that is empty. -/
theorem transportsRefresh_refuses :
    ¬ TransportsRefresh .sample {} ⟨{}, fun _ => "access", fun _ => "csrf"⟩
      (.ofCookies [("__Secure-auth.refresh", "")]) (some "refresh") := by
  rintro ⟨-, rotates, -⟩
  have only : OnlyPresents ⟨{}, fun _ => "access", fun _ => "csrf"⟩
      (.ofCookies [("__Secure-auth.refresh", "")]) (some "refresh") "refresh" := by
    refine ⟨by decide, .inr rfl, ?_, ?_⟩
    · intro other cookie
      exact .inl (Option.some.inj cookie).symm
    · intro other body
      exact .inr (Option.some.inj body).symm
  exact (refuses_of_rotatedToken rfl).not_rotates "refresh" (rotates "refresh" only)

end AuthStartpack.RefreshService
