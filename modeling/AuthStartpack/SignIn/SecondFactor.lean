import AuthStartpack.SignIn.Evidence
import AuthStartpack.SignIn.Provenance

/-!
Owns what stands behind the session of a completed sign-in: a ticket that the
call consumed, for the user of the session, and a second factor of this user that
the call used up.
-/

namespace AuthStartpack

/-- The call accepted this code as a second factor of the user, and used it up. -/
inductive FactorAccepted (services : Services) (seen : ℕ → State → Input → Prop) (call : ℕ)
    (userId : Guid) (code : String) (events : List Event) : AuthenticationMethod → Prop
  | totp {moment read secret timeStep clock} {credential : TotpCredential} {later : State}
      (at_ : seen call moment read) (stored : credential ∈ moment.store.db.totpCredentials)
      (enabled : TotpService.enabledFor userId credential = true)
      (opens : services.totp.unprotect credential.secretEncrypted = some secret)
      (timed : seen call later clock)
      (matched : services.totp.verifyTotp secret clock.now code = some timeStep)
      (claimed : .totpVerified credential.id timeStep ∈ events) :
      FactorAccepted services seen call userId code events .totp
  | recoveryCode {moment read} {row : RecoveryCode} (at_ : seen call moment read)
      (stored : row ∈ moment.store.db.recoveryCodes) (owner : row.userId = userId)
      (unused : row.usedAt = none)
      (verified : services.passwordHasher.verify code row.codeHash = true)
      (spent : .recoveryCodeUsed row ∈ events) :
      FactorAccepted services seen call userId code events .recoveryCode

theorem FactorAccepted.mono {services : Services} {seen : ℕ → State → Input → Prop} {call : ℕ}
    {userId : Guid} {code : String} {events more : List Event} {method : AuthenticationMethod}
    (accepted : FactorAccepted services seen call userId code events method)
    (included : ∀ event ∈ events, event ∈ more) :
    FactorAccepted services seen call userId code more method := by
  cases accepted with
  | totp at_ stored enabled opens timed matched claimed =>
      exact .totp at_ stored enabled opens timed matched (included _ claimed)
  | recoveryCode at_ stored owner unused verified spent =>
      exact .recoveryCode at_ stored owner unused verified (included _ spent)

section Factor

variable {services : Services} {seen : ℕ → State → Input → Prop}
variable {justified : ℕ → State → Session → Prop} {call : ℕ} {state : State}

/-- What the verification of a second factor ends with. -/
def VerifiesFactor (services : Services) (seen : ℕ → State → Input → Prop) (call : ℕ)
    (userId : Guid)
    (code : String) (start : State) : Except AppException (Option AuthenticationMethod) →
      State → Prop
  | .ok (some method), later => OwnKept call start later ∧
      FactorAccepted services seen call userId code (later.eventsOf call) method
  | _, _ => True

theorem TotpService.wp_verifyAsync (userId : Guid) (code : String) :
    (verifyAsync services userId code).wp (.signingIn seen justified) call
      (VerifiesFactor services seen call userId code state) state := by
  have calm : Calm (.signingIn seen justified) call (OwnKept call) := inferInstance
  simp only [verifyAsync, Program.wp_bind]
  refine Action.seen_queryOrThrow calm ?_
  intro moment read reached at_ observed
  have here := calm.trans _ _ _ reached observed
  cases found :
    Action.singleOrDefault (moment.store.db.totpCredentials.filter (enabledFor userId)) with
  | error exception => trivial
  | ok row =>
  rw [Program.andThen_ok]
  cases row with
  | none => trivial
  | some credential =>
  have isRow := Action.singleOrDefault_eq_some found
  obtain ⟨stored, enabled⟩ := List.mem_filter.mp (isRow ▸ List.mem_singleton_self credential)
  simp only [matchTotp, Program.wp_bind, Action.wp_orThrow]
  cases opens : services.totp.unprotect credential.secretEncrypted with
  | none => trivial
  | some secret =>
  simp only [Program.andThen_ok, Program.wp_bind]
  refine Action.seen_utcNow calm ?_
  intro later clock waited timed ticked
  have timely := calm.trans _ _ _ here (calm.trans _ _ _ waited ticked)
  simp only [Program.andThen_ok, Program.wp_pure]
  cases matched : services.totp.verifyTotp secret clock.now code with
  | some timeStep =>
      simp only [Program.wp_bind]
      refine Action.calm_utcNow calm ?_
      intro stamped stamp
      simp only [Program.andThen_ok, Program.wp_bind]
      refine Action.wp_execute calm ?_
      intro current input reach _
      obtain ⟨kept, own⟩ := @signingIn_elsewhere seen justified call current input _ _ rfl
      refine ⟨kept, ?_⟩
      rw [Program.andThen_ok]
      by_cases claimed :
          current.store.db.totpCredentials.countP (claimable credential.id timeStep) = 1
      · rw [if_pos claimed]
        refine ⟨calm.trans _ _ _ timely (calm.trans _ _ _ stamp (calm.trans _ _ _ reach own)), ?_⟩
        refine .totp at_ stored enabled opens timed matched ?_
        rw [Shared.eventsOf_advance, if_pos claimed]
        exact List.mem_append_right _ (List.mem_singleton_self _)
      · rw [if_neg claimed]
        trivial
  | none =>
      simp only [Program.wp_bind]
      refine Action.seen_query calm ?_
      intro listing asked reach seenRows listed
      have whole := calm.trans _ _ _ timely (calm.trans _ _ _ reach listed)
      rw [Program.andThen_ok]
      cases isCode : (listing.store.db.recoveryCodes.filter fun candidate =>
          candidate.userId = userId && candidate.usedAt.isNone).find? fun candidate =>
            services.passwordHasher.verify code candidate.codeHash with
      | none => trivial
      | some recoveryCode =>
          have verified := List.find?_some isCode
          have row := List.mem_filter.mp (List.mem_of_find?_eq_some isCode)
          simp only [Bool.and_eq_true, decide_eq_true_eq, Option.isNone_iff_eq_none] at row
          obtain ⟨storedCode, owner, unused⟩ := row
          simp only [Program.wp_bind]
          refine Action.calm_utcNow calm ?_
          intro dated date
          simp only [Program.andThen_ok, Program.wp_bind]
          refine Action.wp_saveChanges calm ?_ fun _ _ _ _ _ _ _ => trivial
          intro current input db rests saved _
          obtain ⟨-, rfl⟩ := Db.updateRecoveryCode_eq_ok.mp saved
          obtain ⟨kept, own⟩ := @signingIn_elsewhere seen justified call current input _
            [.recoveryCodeUsed recoveryCode] rfl
          refine ⟨kept, calm.trans _ _ _ whole
            (calm.trans _ _ _ date (calm.trans _ _ _ rests own)), ?_⟩
          refine .recoveryCode seenRows storedCode owner unused verified ?_
          rw [Shared.eventsOf_advance]
          exact List.mem_append_right _ (List.mem_singleton_self _)

/-- The ticket that the call has consumed, for this user. -/
structure Ticketed (services : Services) (seen : ℕ → State → Input → Prop)
    (vouched : VerificationToken → Prop) (call : ℕ) (mfaTicket : String) (userId : Guid)
    (events : List Event) (token : VerificationToken) : Prop where
  consumed : ConsumedHere services seen call .mfaTicket mfaTicket events token
  vouched : vouched token
  owner : token.userId = some userId

/-- What stands behind the session of a completed sign-in, by what the call has reported. -/
structure TwoFactors (services : Services) (seen : ℕ → State → Input → Prop)
    (vouched : VerificationToken → Prop) (call : ℕ) (mfaTicket code : String) (events : List Event)
    (session : Session) (token : VerificationToken) (method : AuthenticationMethod) : Prop where
  methods : session.authenticationMethods = [.password, method]
  ticketed : Ticketed services seen vouched call mfaTicket session.userId events token
  factor : FactorAccepted services seen call session.userId code events method

/-- What presenting a ticket ends with. -/
def TakesTicket (services : Services) (seen : ℕ → State → Input → Prop)
    (vouched : VerificationToken → Prop) (call : ℕ) (mfaTicket : String) :
    Except AppException (Option Guid) → State → Prop
  | .ok (some userId), later => ∃ token,
      Ticketed services seen vouched call mfaTicket userId (later.eventsOf call) token
  | _, _ => True

variable {vouched : VerificationToken → Prop}

/-- The user is read again by the hash of the ticket, whose row is then still the consumed one. -/
theorem MfaTicketService.wp_consumeAsync
    (settled : ∀ call state input, seen call state input → AllSpent vouched state)
    (mfaTicket : String) :
    (consumeAsync services mfaTicket).wp (.signingIn seen justified) call
      (TakesTicket services seen vouched call mfaTicket) state := by
  have calm : Calm (.signingIn seen justified) call (OwnKept call) := inferInstance
  simp only [consumeAsync, Program.wp_bind]
  refine Action.seen_utcNow calm ?_
  intro dated clock _ timed _
  rw [Program.andThen_ok]
  refine Program.wp_bind_of (VerificationTokens.wp_consumedHere timed rfl) ?_ fun _ _ _ => trivial
  intro count updated presents
  by_cases missed : count = 0
  · rw [if_pos missed]
    trivial
  rw [if_neg missed]
  obtain ⟨token, consumed⟩ := presents missed
  refine Action.seen_queryOrThrow calm ?_
  intro moment reading later seenRow observed
  have still := consumed.mono (calm.trans _ _ _ later observed)
  cases found : Action.single ((moment.store.db.verificationTokens.filter
      (·.tokenHash = services.tokenGenerator.hash mfaTicket)).map (·.userId)) with
  | error exception => trivial
  | ok owner =>
  cases owner with
  | none => trivial
  | some userId =>
  obtain ⟨entry, inJournal, -, event⟩ := Shared.mem_eventsOf.mp (later _ consumed.reported)
  have spent := settled call moment reading seenRow entry inJournal token _ event
  have listed : some userId ∈ (moment.store.db.verificationTokens.filter
      (·.tokenHash = services.tokenGenerator.hash mfaTicket)).map (·.userId) := by
    rw [Action.single_eq_ok.mp found]
    exact List.mem_singleton_self _
  obtain ⟨row, member, owner⟩ := List.mem_map.mp listed
  obtain ⟨stored, sameHash⟩ := List.mem_filter.mp member
  obtain ⟨same, -⟩ :=
    spent.rows row stored ((of_decide_eq_true sameHash).trans consumed.presented.symm)
  refine ⟨token, still, spent.vouched consumed.takes.1, ?_⟩
  rw [← VerificationToken.issue_userId same]
  exact owner

theorem LoginService.wp_completeMfaAsync
    (settled : ∀ call state input, seen call state input → AllSpent vouched state)
    {http : HttpContext} {mfaTicket code : String}
    (allowed : ∀ current session token method, TwoFactors services seen vouched call mfaTicket code
      (current.eventsOf call) session token method → justified call current session) :
    (completeMfaAsync services http mfaTicket code).wp (.signingIn seen justified) call
      (fun _ _ => True) state := by
  have fails : ∀ (userId : Option Guid) current,
      (mfaFailureAsync http userId : Action LoginResponse).wp
      (.signingIn seen justified) call (fun _ _ => True) current := by
    intro userId current
    have keeps : NeverSignsIn seen justified (mfaFailureAsync http userId : Action LoginResponse) :=
      .bind (.logAsync http _ _) fun _ => .throw _
    exact keeps call current
  refine Program.wp_bind_of (MfaTicketService.wp_consumeAsync settled mfaTicket) ?_
    fun _ _ _ => trivial
  intro owner presented takes
  cases owner with
  | none => exact fails _ _
  | some userId =>
  obtain ⟨token, ticketed⟩ := takes
  refine Program.wp_bind_of (TotpService.wp_verifyAsync userId code) ?_ fun _ _ _ => trivial
  intro verified checked verifies
  cases verified with
  | none => exact fails _ _
  | some method =>
  obtain ⟨kept, accepted⟩ := verifies
  have calm : Calm (.signingIn seen justified) call (OwnKept call) := inferInstance
  refine Program.wp_bind_of (AuthenticationSessionFactory.wp_createAsync calm ?_) ?_
    fun _ _ _ => trivial
  · intro current session reached owner methods
    subst owner
    refine allowed current session token method ⟨methods, ?_, accepted.mono reached⟩
    exact { ticketed with
      consumed := ticketed.consumed.mono fun event member => reached _ (kept _ member) }
  · intro response later _
    have keeps : NeverSignsIn seen justified (do
        AuditLogger.logAsync http .loginSucceeded (some userId)
        return response) := .bind (.logAsync http _ _) fun _ => .pure _
    exact keeps call later

end Factor

end AuthStartpack
