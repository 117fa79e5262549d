import AuthStartpack.SignIn.Evidence
import AuthStartpack.SocialAuth.Takeover

/-!
Owns what stands behind the sessions of the sign-ins without a password. With a
passkey: a challenge that the call consumed, and an assertion over it that the
package accepted for the stored credential of the user. With a provider: a state
that the call consumed, and the user of the identity that the provider returned,
linked before or created by the call.
-/

namespace AuthStartpack

section Passkeys

variable {services : Services} {fido2 : Fido2} {seen : ℕ → State → Input → Prop}
variable {justified : ℕ → State → Session → Prop} {call : ℕ} {state : State}

/-- The response carried an accepted assertion for this credential. -/
structure PasskeySignIn (services : Services) (fido2 : Fido2) (seen : ℕ → State → Input → Prop)
    (call : ℕ) (request : AuthenticatorResponse) (events : List Event) (session : Session)
    (token : VerificationToken) (raw challenge credentialId : String)
    (credential : PasskeyCredential)
    (signCount : ℕ) : Prop where
  response : request = ⟨some raw, some challenge, some credentialId⟩
  consumed : ConsumedHere services seen call .passkeyAuthentication challenge events token
  read : ∃ moment input, seen call moment input ∧
    moment.store.db.passkeyCredentials.filter (·.credentialId = credentialId) = [credential]
  asserted : fido2.makeAssertion
    { assertionResponse := raw
      challenge
      storedPublicKey := credential.publicKey
      storedSignatureCounter := credential.signCount
      userId := credential.userId
      credentialId := credential.credentialId } = some signCount
  counted : credential.signCount = 0 ∨ credential.signCount < signCount
  reported : .passkeyAsserted credential signCount ∈ events
  owner : session.userId = credential.userId
  methods : session.authenticationMethods = [.passkey]

theorem PasskeyService.wp_completeAuthenticationAsync {http : HttpContext}
    {request : AuthenticatorResponse}
    (allowed : ∀ current session token raw challenge credentialId credential signCount,
      PasskeySignIn services fido2 seen call request
        (current.eventsOf call) session token raw challenge
        credentialId credential signCount → justified call current session) :
    (completeAuthenticationAsync services fido2 http request).wp (.signingIn seen justified) call
      (fun _ _ => True) state := by
  have calm : Calm (.signingIn seen justified) call (OwnKept call) := inferInstance
  rw [completeAuthenticationAsync, Program.wp_tryCatch]
  -- whatever the body ends with, the handler only throws
  refine Program.wp_mono (?_ : Program.wp _ _ (fun _ _ => True) _ _) fun result _ _ => by
    cases result <;> trivial
  obtain ⟨raw?, challenge?, rawId?⟩ := request
  simp only [Program.wp_bind, Action.wp_orThrow]
  cases raw? with
  | none => trivial
  | some raw =>
  simp only [Program.andThen_ok, Program.wp_bind, Action.wp_orThrow]
  cases challenge? with
  | none => trivial
  | some challenge =>
  simp only [consumeChallengeAsync, Program.wp_bind]
  refine Action.seen_utcNow calm ?_
  intro dated clock _ timed _
  rw [Program.andThen_ok, Program.wp_bind]
  refine Program.wp_mono (VerificationTokens.wp_consumedHere timed rfl) ?_
  intro counted updated presents
  cases counted with
  | error exception => trivial
  | ok count =>
  rw [Program.andThen_ok]
  by_cases missed : count = 0
  · rw [if_pos missed]
    trivial
  rw [if_neg missed]
  obtain ⟨token, consumed⟩ := presents missed
  simp only [Program.wp_pure, Program.andThen_ok, Program.wp_bind, Action.wp_orThrow]
  cases rawId? with
  | none => trivial
  | some credentialId =>
  refine Action.seen_queryOrThrow calm ?_
  intro moment read reached at_ observed
  have here := calm.trans _ _ _ reached observed
  cases found : Action.singleOrDefault
      (moment.store.db.passkeyCredentials.filter (·.credentialId = credentialId)) with
  | error exception => trivial
  | ok row =>
  simp only [Program.andThen_ok, Program.wp_bind, Action.wp_orThrow]
  cases row with
  | none => trivial
  | some credential =>
  dsimp only
  split
  case isTrue => trivial
  simp only [Program.wp_bind, Action.wp_orThrow]
  split
  case h_2 => trivial
  case h_1 signCount asserted =>
  rw [Program.andThen_ok]
  split
  case isTrue => trivial
  case isFalse accepted =>
  have counted : credential.signCount = 0 ∨ credential.signCount < signCount := by
    simp only [Bool.and_eq_true, decide_eq_true_eq, not_and, not_le] at accepted
    exact Decidable.or_iff_not_imp_left.mpr accepted
  rw [Program.wp_bind]
  refine Action.calm_utcNow calm ?_
  intro used use
  rw [Program.andThen_ok, Program.wp_bind]
  refine Action.wp_saveChanges calm ?_ fun _ _ _ _ _ _ _ => trivial
  intro current input db rests saved _
  obtain ⟨-, rfl⟩ := Db.updatePasskeyCredential_eq_ok.mp saved
  obtain ⟨kept, own⟩ := @signingIn_elsewhere seen justified call current input _
    [.passkeyAsserted credential signCount] rfl
  refine ⟨kept, ?_⟩
  rw [Program.andThen_ok]
  have since := calm.trans _ _ _ here (calm.trans _ _ _ use (calm.trans _ _ _ rests own))
  refine Program.wp_bind_of (AuthenticationSessionFactory.wp_createAsync calm ?_) ?_
    fun _ _ _ => trivial
  · intro ending session later owner methods
    refine allowed ending session token raw challenge credentialId credential signCount ?_
    refine ⟨rfl, consumed.mono fun event member => later _ (since _ member),
      ⟨moment, read, at_, Action.singleOrDefault_eq_some found⟩, asserted, counted, later _ ?_,
        owner, methods⟩
    rw [Shared.eventsOf_advance]
    exact List.mem_append_right _ (List.mem_singleton_self _)
  · intro response later _
    have keeps : NeverSignsIn seen justified (do
        AuditLogger.logAsync http .loginSucceeded (some credential.userId)
        return response) := .bind (.logAsync http _ _) fun _ => .pure _
    exact keeps call later

end Passkeys

section Social

variable {services : Services} {seen : ℕ → State → Input → Prop}
variable {justified : ℕ → State → Session → Prop} {call : ℕ} {state : State}

/-- The user of this identity: linked before, or created by the call. -/
inductive Resolved (seen : ℕ → State → Input → Prop) (call : ℕ) (name : String)
    (identity : SocialIdentity) (events : List Event) (userId : Guid) : Prop
  | linked {moment input user} (at_ : seen call moment input)
      (stored : SocialAuthService.linkedUsers name identity.subject moment.store.db = [user])
      (owner : user.id = userId)
  | created {user account lookups} (reported : .socialSignUp user account lookups ∈ events)
      (rows : SocialAuthService.NewUser name identity user account) (owner : user.id = userId)

theorem Resolved.mono {name : String} {identity : SocialIdentity} {events more : List Event}
    {userId : Guid} (resolved : Resolved seen call name identity events userId)
    (included : ∀ event ∈ events, event ∈ more) : Resolved seen call name identity more userId := by
  cases resolved with
  | linked at_ stored owner => exact .linked at_ stored owner
  | created reported rows owner => exact .created (included _ reported) rows owner

/-- The provider returned the identity of the session's user. -/
structure SocialSignIn (services : Services) (seen : ℕ → State → Input → Prop) (call : ℕ)
    (host : SocialHost) (answers : ProviderAnswers) (provider : String)
    (query : SocialCallbackQuery)
    (events : List Event) (session : Session) (token : VerificationToken) (name : String)
    (identity : SocialIdentity) : Prop where
  named : SocialAuthService.normalizeProvider provider = .ok name
  consumed : ConsumedHere services seen call .socialState (query.state.getD "") events token
  identified : SocialAuthService.identityOf host answers name (query.code.getD "") = .ok identity
  resolved : Resolved seen call name identity events session.userId
  methods : session.authenticationMethods = [SocialAuthService.methodOf name]

namespace SocialAuthService

/-- What the user of an identity is known by. -/
def KnownBy (seen : ℕ → State → Input → Prop) (call : ℕ) (name : String) (identity : SocialIdentity)
    (start : State) : Except AppException User → State → Prop
  | .ok user, later => OwnKept call start later ∧
      Resolved seen call name identity (later.eventsOf call) user.id
  | .error _, _ => True

theorem wp_resolveUserAsync {http : HttpContext} {name : String} {identity : SocialIdentity} :
    (resolveUserAsync services http name identity).wp (.signingIn seen justified) call
      (KnownBy seen call name identity state) state := by
  have calm : Calm (.signingIn seen justified) call (OwnKept call) := inferInstance
  rw [resolveUserAsync, Program.wp_bind]
  refine Action.seen_queryOrThrow calm ?_
  intro moment read reached at_ observed
  have here := calm.trans _ _ _ reached observed
  cases found : Action.singleOrDefault (linkedUsers name identity.subject moment.store.db) with
  | error exception => trivial
  | ok linked =>
  rw [Program.andThen_ok]
  cases linked with
  | some user => exact ⟨here, .linked at_ (Action.singleOrDefault_eq_some found) rfl⟩
  | none =>
  rw [Program.wp_bind]
  refine wp_createUserAsync calm ?_ ?_
  · intro current input user account lookups db later rows _ saved _
    obtain ⟨-, -, -, equal⟩ := addLinkedUser_eq_ok saved
    obtain ⟨kept, own⟩ := @signingIn_elsewhere seen justified call current input
      { current.store with db }
      [.socialSignUp user account lookups] (by rw [equal])
    refine ⟨kept, ?_⟩
    have created := calm.trans _ _ _ here (calm.trans _ _ _ later own)
    rw [Program.andThen_ok, Program.wp_bind]
    refine AuditLogger.wp_logAsync calm ?_
    intro logged log
    have reported : Event.socialSignUp user account lookups ∈ logged.eventsOf call := by
      refine log _ ?_
      rw [Shared.eventsOf_advance]
      exact List.mem_append_right _ (List.mem_singleton_self _)
    exact ⟨calm.trans _ _ _ created log, .created reported rows rfl⟩
  · intro current input user account lookups exception _ _ _ _ _
    obtain ⟨kept, -⟩ := @signingIn_elsewhere seen justified call current input current.store
      [.socialSignUp user account lookups] rfl
    exact ⟨kept, trivial⟩

theorem wp_callbackAsync {host : SocialHost} {http : HttpContext} {answers : ProviderAnswers}
    {provider : String} {query : SocialCallbackQuery}
    (allowed : ∀ current session token name identity, SocialSignIn services seen call host answers
      provider query (current.eventsOf call) session token name identity →
        justified call current session) :
    (callbackAsync services host http answers provider query).wp (.signingIn seen justified) call
      (fun _ _ => True) state := by
  have calm : Calm (.signingIn seen justified) call (OwnKept call) := inferInstance
  rw [callbackAsync, Program.wp_bind]
  cases named : normalizeProvider provider with
  | error exception => trivial
  | ok name =>
  rw [Program.wp_done, Program.andThen_ok]
  split
  case isTrue => trivial
  simp only [consumeStateAsync, Program.wp_bind]
  refine Action.seen_utcNow calm ?_
  intro dated clock _ timed _
  rw [Program.andThen_ok, Program.wp_bind]
  refine Program.wp_mono (VerificationTokens.wp_consumedHere timed rfl) ?_
  intro counted updated presents
  cases counted with
  | error exception => trivial
  | ok count =>
  rw [Program.andThen_ok]
  by_cases missed : count = 0
  · rw [if_pos missed]
    trivial
  rw [if_neg missed]
  obtain ⟨token, consumed⟩ := presents missed
  cases identified : identityOf host answers name (query.code.getD "") with
  | error exception => trivial
  | ok identity =>
  show (signInAsync services http name identity).wp _ _ _ _
  refine Program.wp_bind_of wp_resolveUserAsync ?_ fun _ _ _ => trivial
  rintro user known ⟨kept, resolved⟩
  refine Program.wp_bind_of (AuthenticationSessionFactory.wp_createAsync calm ?_) ?_
    fun _ _ _ => trivial
  · intro current session reached owner methods
    have known := resolved.mono reached
    rw [← owner] at known
    refine allowed current session token name identity ?_
    exact ⟨named, consumed.mono fun event member => reached _ (kept _ member), identified,
      known, methods⟩
  · intro response later _
    have keeps : NeverSignsIn seen justified (do
        AuditLogger.logAsync http .loginSucceeded (some user.id)
        return response) := .bind (.logAsync http _ _) fun _ => .pure _
    exact keeps call later

end SocialAuthService

end Social

end AuthStartpack
