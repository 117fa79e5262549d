import AuthStartpack.Recovery.Accounts
import AuthStartpack.SignIn.OneSession
import AuthStartpack.SignIn.Password
import AuthStartpack.SignIn.Providers
import AuthStartpack.SignIn.SecondFactor
import AuthStartpack.SocialAuth.Callbacks

/-!
Owns that nobody gets a session without authentication. In every run of the
operations, each step that adds a session is one of a sign-in that can show for
it: the password of the user where no confirmed authenticator was read, a ticket
of this user with a second factor of this user, an accepted assertion for a stored
passkey of the user, or the identity that a provider returned. One sign-in, and
one ticket, challenge or state, gives one session at most.
-/

namespace AuthStartpack

variable {services : Services} {fido2 : Fido2} {operations : List ServiceOperation} {start : State}

/-- A login of the run issued the token, for a user with a confirmed authenticator whose password it
had accepted. -/
def IssuedByLogin (services : Services) (operations : List ServiceOperation)
    (seen : ℕ → State → Input → Prop) (token : VerificationToken) : Prop :=
  ∃ call http email password user credential,
    operations[call]? = some (.login http email password) ∧
      PasswordAccepted services seen call email password user credential ∧
        credential.any (·.confirmedAt.isSome) = true ∧ token.userId = some user.id

/-- A token that was stored at the start, or that a login of the run issued. -/
def Vouched (services : Services) (operations : List ServiceOperation) (start : State)
    (seen : ℕ → State → Input → Prop) (token : VerificationToken) : Prop :=
  ∃ source : VerificationToken, source.issue = token.issue ∧
    (source ∈ start.store.db.verificationTokens ∨ IssuedByLogin services operations seen source)

/-- What an operation that adds a session can show for it. -/
inductive Authenticates (services : Services) (fido2 : Fido2) (seen : ℕ → State → Input → Prop)
    (vouched : VerificationToken → Prop) (call : ℕ) (events : List Event) (session : Session) :
    ServiceOperation → Prop
  | byPassword {http email password user credential}
      (accepted : PasswordAccepted services seen call email password user credential)
      (unconfirmed : (credential : Option TotpCredential).any (·.confirmedAt.isSome) = false)
      (owner : session.userId = user.id) (methods : session.authenticationMethods = [.password]) :
      Authenticates services fido2 seen vouched call events session (.login http email password)
  | bySecondFactor {http mfaTicket code token method}
      (factors : TwoFactors services seen vouched call mfaTicket code events session token method) :
      Authenticates services fido2 seen vouched call events session
        (.completeMfa http mfaTicket code)
  | byPasskey {http request token raw challenge credentialId credential signCount}
      (passkey : PasskeySignIn services fido2 seen call request events session token raw challenge
        credentialId credential signCount) :
      Authenticates services fido2 seen vouched call events session
        (.passkeyAuthentication http request)
  | byProvider {host http answers provider query token name identity}
      (social : SocialSignIn services seen call host answers provider query events
        session token name
        identity) :
      Authenticates services fido2 seen vouched call events session
        (.socialCallback host http answers provider query)

/-! ### The tickets of a run -/

section Tickets

variable {seen : ℕ → State → Input → Prop} {call : ℕ}

/-- A login issues tickets for the user whose password it has accepted. -/
theorem LoginService.loginAsync_tickets {http : HttpContext} {email password : String}
    (issuing : operations[call]? = some (.login http email password)) (state : State) :
    (loginAsync services http email password).wp
      (.ticketing services seen (IssuedByLogin services operations seen)) call
        (fun _ _ => True) state := by
  refine wp_loginAsync seen (fun _ _ admitted => admitted) ?_ ?_ state
  · intro original current events _ silent
    refine updateUser_tokens fun db event member => ?_
    cases silent db event member <;> exact Bool.false_ne_true
  · intro user credential accepted state
    unfold proceedAsync
    split
    case isTrue confirmed =>
      have stores : MovesTokens services seen (IssuedByLogin services operations seen) (do
          let ticket ← MfaTicketService.issueAsync services user.id
          AuditLogger.logAsync http .mfaChallengeIssued (some user.id)
          return LoginResult.mfaRequired
            { mfaTicket := ticket.value, expiresAt := ticket.expiresAt }) := by
        refine .bind (MovesTokens.store (fun _ _ member => by cases member) ?_) fun _ =>
          .bind (.logAsync http _ _) fun _ => .pure _
        intro row _ _ owner
        exact ⟨call, http, email, password, user, credential, issuing, accepted, confirmed, owner⟩
      exact stores call state
    case isFalse =>
      have keeps : MovesTokens services seen (IssuedByLogin services operations seen) (do
          let response ← AuthenticationSessionFactory.createAsync services http user.id [.password]
          AuditLogger.logAsync http .loginSucceeded (some user.id)
          return LoginResult.completed response) := by
        refine .bind ?_ fun _ => .bind (.logAsync http _ _) fun _ => .pure _
        exact AuthenticationSessionFactory.createAsync_frame (fun _ _ => rfl)
          (fun _ _ => rfl) services
          http _ _
      exact keeps call state

end Tickets

/-! ### Runs -/

section Runs

variable {schedule : List (ℕ × Input)}

/-- The operation of a call that is there. -/
theorem operatingServices_found {call : ℕ} {program : Action Unit}
    (found : (operatingServices services fido2 operations start).calls[call]? = some program) :
    ∃ op, operations[call]? = some op ∧ op.program services fido2 = program := by
  simp only [operatingServices, List.getElem?_map, Option.map_eq_some_iff] at found
  exact found

theorem TokensMove.refl (call : ℕ) (state : State) : TokensMove services call state state where
  rows row member := .inl ⟨row, member, rfl, id⟩
  keyed := id
  consumed := ⟨[], (List.append_nil _).symm, fun _ member => nomatch member⟩

/-- Every moment of a run has the invariant of the tickets. -/
theorem operatingServices_traced (differ : TokensDiffer services)
    (begins : TicketStart services start)
    {before after : List (ℕ × Input)} (split : schedule = before ++ after) :
    let pool := operatingServices services fido2 operations start
    ∃ owner, Traced services (Vouched services operations start (pool.Moment schedule))
      (pool.run before)
      owner := by
  intro pool
  have parallel : Pool.Parallel (.ticketing services (pool.Moment schedule)
      (IssuedByLogin services operations (pool.Moment schedule))) fun _ _ => True :=
    ⟨fun _ => trivial, fun _ _ _ _ _ => trivial, fun _ _ _ _ _ => trivial, fun _ _ _ _ => trivial⟩
  have verified : pool.VerifiedUnder (.ticketing services (pool.Moment schedule)
      (IssuedByLogin services operations (pool.Moment schedule))) (fun _ _ => True)
        fun _ _ _ => True := by
    intro call program found
    refine ⟨start, trivial, .refl _ _, ?_⟩
    obtain ⟨op, isOp, rfl⟩ := operatingServices_found found
    by_cases login : ∃ http email password, op = .login http email password
    · obtain ⟨http, email, password, rfl⟩ := login
      refine Program.wp_bind_of (LoginService.loginAsync_tickets isOp start) ?_ ?_
      · exact fun _ _ _ => trivial
      · exact fun _ _ _ => trivial
    · refine op.movesTokens ?_ call start
      rintro http email password rfl
      exact login ⟨http, email, password, rfl⟩
  refine Pool.run_invariant (fun reached => ∃ owner, Traced services
    (Vouched services operations start (pool.Moment schedule)) reached owner) ?_ ?_ split
  · have sound : (tokenHashes services).numbering.Sound start.store := by
      rintro number ⟨token, stored, drawn⟩
      exact begins.drawn token stored number drawn
    have owns : ∀ (call : ℕ) (program : Action Unit), pool.calls[call]? = some program →
        program.Owns (tokenHashes services).numbering (fun _ _ => True) fun _ => False := by
      intro call program found
      obtain ⟨op, -, rfl⟩ := operatingServices_found found
      exact Program.owns_mono (op.storesOnly differ _ nofun) fun _ _ _ => trivial
    have nothing : ∀ entry ∈ start.journal, False := by
      intro entry member
      rw [begins.journal] at member
      cases member
    refine ⟨fun _ _ => False, Pool.owned_of_owns sound owns, begins.keyed, ?_, ?_, ?_, ?_⟩
    · exact fun row stored _ => ⟨row, rfl, .inl stored⟩
    · exact fun entry member => (nothing entry member).elim
    · exact fun entry member => (nothing entry member).elim
    · exact fun first member => (nothing first member).elim
  · rintro early call input late cut ⟨owner, traced⟩
    have step := Pool.guarantee_at parallel verified (pool.admitted_moments schedule) cut
    have moves :
        TokensMove services call (pool.run early).shared ((pool.run early).step call input).shared ∧
        TicketsFrom (IssuedByLogin services operations (pool.Moment schedule))
          (pool.run early).shared.store.db.verificationTokens
          ((pool.run early).step call input).shared.store.db.verificationTokens := by
      rcases step with idle | kept
      · rw [idle]
        exact ⟨.refl _ _, .refl _⟩
      · exact kept
    refine traced.step ?_ ?_ moves.1 moves.2
    · rintro row source same ⟨first, sameFirst, origin⟩
      exact ⟨first, sameFirst.trans same, origin⟩
    · exact fun row issued => ⟨row, rfl, .inr issued⟩

/-- What was consumed is spent at every moment of a run. -/
theorem operatingServices_allSpent (differ : TokensDiffer services)
    (begins : TicketStart services start)
    {call : ℕ} {state : State} {input : Input}
    (moment : (operatingServices services fido2 operations start).Moment schedule call
      state input) :
    AllSpent (Vouched services operations start
      ((operatingServices services fido2 operations start).Moment schedule)) state := by
  obtain ⟨before, after, split, rfl⟩ := moment
  obtain ⟨owner, traced⟩ := operatingServices_traced differ begins split
  exact traced.spent

/-- The operation of the call can show for the session. -/
def Justified (services : Services) (fido2 : Fido2) (operations : List ServiceOperation)
    (seen : ℕ → State → Input → Prop) (vouched : VerificationToken → Prop) (call : ℕ)
    (state : State)
    (session : Session) : Prop :=
  ∃ op, operations[call]? = some op ∧
    Authenticates services fido2 seen vouched call (state.eventsOf call) session op

theorem ServiceOperation.wp_justified {seen : ℕ → State → Input → Prop}
    {vouched : VerificationToken → Prop}
    (settled : ∀ call state input, seen call state input → AllSpent vouched state) {call : ℕ}
    {op : ServiceOperation} (isOp : operations[call]? = some op) (state : State) :
    (op.program services fido2).wp
      (.signingIn seen (Justified services fido2 operations seen vouched)) call
      (fun _ _ => True) state := by
  have calm : Calm (.signingIn seen (Justified services fido2 operations seen vouched)) call
      fun _ _ => True := inferInstance
  cases other : op.signsIn with
  | false => exact op.neverSignsIn other call state
  | true =>
  cases op with
  | login http email password =>
      refine Program.wp_bind_of (LoginService.wp_loginAsync seen
        (fun _ _ admitted => admitted) ?_ ?_ state) (fun _ _ _ => trivial) fun _ _ _ => trivial
      · exact fun _ _ _ _ _ => NeverSignsIn.updateUser _ _ _ fun _ _ _ => not_false
      intro user credential accepted state
      unfold LoginService.proceedAsync
      split
      case isTrue =>
        have keeps : NeverSignsIn seen (Justified services fido2 operations seen vouched) (do
            let ticket ← MfaTicketService.issueAsync services user.id
            AuditLogger.logAsync http .mfaChallengeIssued (some user.id)
            return LoginResult.mfaRequired
              { mfaTicket := ticket.value, expiresAt := ticket.expiresAt }) :=
          .bind (NeverSignsIn.stores services .mfaChallenge _ _) fun _ =>
            .bind (.logAsync http _ _) fun _ => .pure _
        exact keeps call state
      case isFalse unconfirmed =>
        refine Program.wp_bind_of (AuthenticationSessionFactory.wp_createAsync calm ?_) ?_
          fun _ _ _ => trivial
        · intro current session _ owner methods
          exact ⟨_, isOp, .byPassword accepted (Bool.eq_false_iff.mpr unconfirmed) owner methods⟩
        · intro response later _
          have keeps : NeverSignsIn seen (Justified services fido2 operations seen vouched) (do
              AuditLogger.logAsync http .loginSucceeded (some user.id)
              return LoginResult.completed response) := .bind (.logAsync http _ _) fun _ => .pure _
          exact keeps call later
  | completeMfa http mfaTicket code =>
      refine Program.wp_bind_of (LoginService.wp_completeMfaAsync settled ?_) (fun _ _ _ => trivial)
        fun _ _ _ => trivial
      intro current session token method factors
      exact ⟨_, isOp, .bySecondFactor factors⟩
  | passkeyAuthentication http request =>
      refine Program.wp_bind_of (PasskeyService.wp_completeAuthenticationAsync ?_)
        (fun _ _ _ => trivial) fun _ _ _ => trivial
      intro current session token raw challenge credentialId credential signCount passkey
      exact ⟨_, isOp, .byPasskey passkey⟩
  | socialCallback host http answers provider query =>
      refine Program.wp_bind_of (SocialAuthService.wp_callbackAsync ?_) (fun _ _ _ => trivial)
        fun _ _ _ => trivial
      intro current session token name identity social
      exact ⟨_, isOp, .byProvider social⟩
  | _ => cases other

/-- A sign-in adds one session at most. -/
theorem Authenticates.atMostOnce {seen : ℕ → State → Input → Prop}
    {vouched : VerificationToken → Prop}
    {call : ℕ} {events : List Event} {session : Session} {op : ServiceOperation}
    (authenticates : Authenticates services fido2 seen vouched call events session op) :
    (op.program services fido2).AtMostOnce AddsNone := by
  cases authenticates with
  | byPassword =>
      exact .before (LoginService.loginAsync_atMostOnce _ _ _) fun _ => always_addsNone (.pure _)
  | bySecondFactor =>
      exact .before (LoginService.completeMfaAsync_atMostOnce _ _ _)
        fun _ => always_addsNone (.pure _)
  | byPasskey =>
      exact .before (PasskeyService.completeAuthenticationAsync_atMostOnce _ _) fun _ =>
        always_addsNone (.pure _)
  | byProvider =>
      exact .before (SocialAuthService.callbackAsync_atMostOnce _ _ _ _ _) fun _ =>
        always_addsNone (.pure _)

/-! ### One session a token -/

/-- The one-time token in the request of a sign-in. -/
def ServiceOperation.presented? : ServiceOperation → Option String
  | completeMfa _ mfaTicket _ => some mfaTicket
  | passkeyAuthentication _ request => request.challenge
  | socialCallback _ _ _ _ query => query.state
  | _ => none

/-- The calls are one, or they present tokens of one hash. -/
def SamePresentation (services : Services) (operations : List ServiceOperation) (call other : ℕ) :
    Prop :=
  call = other ∨ ∃ op opToo text textToo, operations[call]? = some op ∧
    operations[other]? = some opToo ∧
    op.presented? = some text ∧ opToo.presented? = some textToo ∧
      services.tokenGenerator.hash text = services.tokenGenerator.hash textToo

/-- A sign-in that was given a token has consumed it. -/
theorem Authenticates.consumed {seen : ℕ → State → Input → Prop}
    {vouched : VerificationToken → Prop}
    {call : ℕ} {events : List Event} {session : Session} {op : ServiceOperation} {text : String}
    (authenticates : Authenticates services fido2 seen vouched call events session op)
    (presented : op.presented? = some text) :
    ∃ token consumer, .verificationTokenConsumed token consumer ∈ events ∧
      token.tokenHash = services.tokenGenerator.hash text := by
  cases authenticates with
  | byPassword => cases presented
  | bySecondFactor factors =>
      cases presented
      exact ⟨_, _, factors.ticketed.consumed.reported, factors.ticketed.consumed.presented⟩
  | byPasskey passkey =>
      rw [passkey.response] at presented
      cases presented
      exact ⟨_, _, passkey.consumed.reported, passkey.consumed.presented⟩
  | byProvider social =>
      have consumed := social.consumed
      simp only [ServiceOperation.presented?] at presented
      rw [presented] at consumed
      exact ⟨_, _, consumed.reported, consumed.presented⟩

/-! ### Authentication -/

/-- At this step of a run, its call adds a session. -/
def SignsInAt (pool : Pool Input World Event AppException Unit)
    (before : List (ℕ × Input)) (call : ℕ)
    (input : Input) (session : Session) : Prop :=
  NewSession (pool.run before).shared.store.db.sessions
    ((pool.run before).step call input).shared.store.db.sessions session

instance (pool : Pool Input World Event AppException Unit) (before : List (ℕ × Input)) (call : ℕ)
    (input : Input) (session : Session) : Decidable (SignsInAt pool before call input session) :=
  inferInstanceAs (Decidable (NewSession _ _ _))

/-- What a run of the operations keeps to. -/
structure SessionsAuthenticated (services : Services) (fido2 : Fido2)
    (operations : List ServiceOperation) (start : State)
    (pool : Pool Input World Event AppException Unit) (schedule : List (ℕ × Input)) : Prop where
  justified : ∀ before call input after session, schedule = before ++ (call, input) :: after →
    SignsInAt pool before call input session →
    let seen := pool.Moment (before ++ [(call, input)])
    Justified services fido2 operations seen (Vouched services operations start seen) call
      (pool.run before).shared session
  single : ∀ before call input after session earlier other reading rest otherSession,
    schedule = before ++ (call, input) :: after → schedule = earlier ++ (other, reading) :: rest →
    SignsInAt pool before call input session → SignsInAt pool earlier other reading otherSession →
    SamePresentation services operations call other → before = earlier ∧ session = otherSession

/-- Each step that adds a session is one of a sign-in that authenticates its user; one sign-in, and
one presented token, gives one session at most. -/
theorem sessions_authenticated (differ : TokensDiffer services)
    (begins : TicketStart services start)
    (schedule : List (ℕ × Input)) :
    SessionsAuthenticated services fido2 operations start
      (operatingServices services fido2 operations start) schedule := by
  let pool := operatingServices services fido2 operations start
  have adds : ∀ before call input after, schedule = before ++ (call, input) :: after →
      let seen := pool.Moment (before ++ [(call, input)])
      AddsJustified
        (Justified services fido2 operations seen (Vouched services operations start seen)
        call (pool.run before).shared) (pool.run before).shared.store.db.sessions
          ((pool.run before).step call input).shared.store.db.sessions := by
    intro before call input after _ seen
    have settled : ∀ call state input, seen call state input →
        AllSpent (Vouched services operations start seen) state :=
      fun _ _ _ moment => operatingServices_allSpent differ begins moment
    have parallel : Pool.Parallel (.signingIn seen (Justified services fido2 operations seen
        (Vouched services operations start seen))) fun _ _ => True :=
      ⟨fun _ => trivial, fun _ _ _ _ _ => trivial, fun _ _ _ _ untouched => untouched,
        fun _ _ _ _ => trivial⟩
    have verified : pool.VerifiedUnder (.signingIn seen (Justified services fido2 operations seen
        (Vouched services operations start seen))) (fun _ _ => True) fun _ _ _ => True := by
      intro other program found
      refine ⟨start, trivial, .refl _ _, ?_⟩
      obtain ⟨op, isOp, rfl⟩ := operatingServices_found found
      exact op.wp_justified settled isOp start
    rcases Pool.guarantee_at parallel verified (pool.admitted_moments _) rfl with idle | kept
    · rw [idle]
      exact (NoneNew.refl _).addsJustified _
    · exact kept
  refine ⟨fun before call input after session split =>
    (adds before call input after split).justified session,
    ?_⟩
  intro before call input after session earlier other reading rest otherSession split
    splitToo signsIn
    signsInToo same
  obtain ⟨op, isOp, authenticates⟩ := (adds _ _ _ _ split).justified _ signsIn
  obtain ⟨opToo, isOpToo, authenticatesToo⟩ := (adds _ _ _ _ splitToo).justified _ signsInToo
  have sameCall : call = other := by
    rcases same with same | ⟨_, _, _, _, isFirst, isSecond, presented, presentedToo, sameHash⟩
    · exact same
    obtain rfl := Option.some.inj (isOp.symm.trans isFirst)
    obtain rfl := Option.some.inj (isOpToo.symm.trans isSecond)
    obtain ⟨token, consumer, reported, hash⟩ := authenticates.consumed presented
    obtain ⟨tokenToo, consumerToo, reportedToo, hashToo⟩ := authenticatesToo.consumed presentedToo
    obtain ⟨owner, traced⟩ :=
      @operatingServices_traced services fido2 operations start schedule differ
      begins schedule [] (List.append_nil _).symm
    obtain ⟨entry, inJournal, own, consumes⟩ := Shared.mem_eventsOf.mp reported
    obtain ⟨entryToo, inJournalToo, ownToo, consumesToo⟩ := Shared.mem_eventsOf.mp reportedToo
    have once := traced.once entry ?_ entryToo ?_ _ _ _ _ consumes consumesToo
      (hash.trans (sameHash.trans hashToo.symm))
    · rw [← own, ← ownToo, once]
    · rw [split, Pool.run_append]
      exact (Pool.run_journal _ _).subset inJournal
    · rw [splitToo, Pool.run_append]
      exact (Pool.run_journal _ _).subset inJournalToo
  subst sameCall
  have once : ∀ program, pool.calls[call]? = some program → program.AtMostOnce AddsNone := by
    intro program found
    obtain ⟨found, isFound, rfl⟩ := operatingServices_found found
    obtain rfl := Option.some.inj (isOp.symm.trans isFound)
    exact authenticates.atMostOnce
  have changes : ∀ early reading added, SignsInAt pool early call reading added →
      ¬ AddsNone (pool.run early).shared.store
        ((pool.run early).step call reading).shared.store := by
    intro early reading added signsIn none
    obtain ⟨old, stored, same⟩ := none added signsIn.stored
    exact signsIn.fresh old stored same
  have sameStep : before = earlier := Pool.change_unique (fun store => .refl _) once split splitToo
    (changes _ _ _ signsIn) (changes _ _ _ signsInToo)
  subst sameStep
  have sameInput : input = reading := by
    have steps := List.append_cancel_left (split.symm.trans splitToo)
    exact congrArg Prod.snd (List.cons.inj steps).1
  subst sameInput
  exact ⟨rfl, (adds _ _ _ _ split).single _ _ signsIn signsInToo⟩

end Runs

/-- Ada has a confirmed authenticator. -/
def enrolledStart : State :=
  Shared.initial
    { db :=
        { users :=
            [{ id := 1
               email := "ada@example.test"
               emailVerified := true
               securityStamp := 7
               passwordHash := some "s$secret" }]
          totpCredentials :=
            [{ id := 2, userId := 1, secretEncrypted := "n$kk", confirmedAt := some 10 }] }
      supply := 3 }
    ⟨90, false⟩

/-- A login with her password, and its completion with a code. -/
def bothFactors : List ServiceOperation :=
  [.login {} "ada@example.test" "secret", .completeMfa {} "ttt" "kk"]

/-- Up to the step that adds the session. -/
def untilSession : List (ℕ × Input) := callSteps 0 14 ++ callSteps 1 13

theorem enrolledStart_ticketStart : TicketStart .sample enrolledStart :=
  ⟨rfl, List.nodup_nil, fun _ member => nomatch member⟩

set_option maxRecDepth 40000 in
theorem untilSession_signsIn :
    ∃ session, SignsInAt (operatingServices .sample .attesting bothFactors enrolledStart)
      untilSession 1
      ⟨100, false⟩ session := by
  have added :
      (((operatingServices .sample .attesting bothFactors enrolledStart).run untilSession).step 1
      ⟨100, false⟩).shared.store.db.sessions.any fun session =>
        SignsInAt (operatingServices .sample .attesting bothFactors enrolledStart) untilSession 1
          ⟨100, false⟩ session := by
    decide +kernel
  obtain ⟨session, -, signsIn⟩ := List.any_eq_true.mp added
  exact ⟨session, of_decide_eq_true signsIn⟩

theorem sessions_authenticated_sample :
    ∃ session, SignsInAt (operatingServices .sample .attesting bothFactors enrolledStart)
        untilSession 1
        ⟨100, false⟩ session ∧
      let seen := (operatingServices .sample .attesting bothFactors enrolledStart).Moment
        (untilSession ++ [(1, ⟨100, false⟩)])
      Justified .sample .attesting bothFactors seen
        (Vouched .sample bothFactors enrolledStart seen) 1
        ((operatingServices .sample .attesting bothFactors enrolledStart).run untilSession).shared
          session := by
  obtain ⟨session, signsIn⟩ := untilSession_signsIn
  refine ⟨session, signsIn, ?_⟩
  exact (sessions_authenticated tokensDiffer_sample enrolledStart_ticketStart
    (untilSession ++ [(1, ⟨100, false⟩)])).justified untilSession 1 ⟨100, false⟩
      [] session rfl signsIn

end AuthStartpack
