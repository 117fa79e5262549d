import AuthStartpack.Services.Mfa.TotpService

/-!
Owns the operations on authenticators as calls, and their specifications under
any law: what a matched code proves, and that replacing the recovery codes
writes its caller's changes in one save.
-/

namespace AuthStartpack

inductive TotpOperation
  | enroll (userId : Guid)
  | confirm (userId : Guid) (code : String)
  | verify (userId : Guid) (code : String)
  | disable (http : HttpContext) (userId : Guid)
  | regenerate (userId : Guid)
deriving DecidableEq, Repr

inductive TotpResponse
  | enrolled (response : TotpEnrollmentResponse)
  | recoveryCodes (response : RecoveryCodesResponse)
  | verified (method : Option AuthenticationMethod)
  | disabled
deriving DecidableEq, Repr

def TotpOperation.program (services : Services) : TotpOperation → Action TotpResponse
  | enroll userId => do return .enrolled (← TotpService.enrollAsync services userId)
  | confirm userId code => do
      return .recoveryCodes (← TotpService.confirmAsync services userId code)
  | verify userId code => do return .verified (← TotpService.verifyAsync services userId code)
  | disable http userId => do
      TotpService.disableAsync http userId
      return .disabled
  | regenerate userId => do
      return .recoveryCodes (← TotpService.regenerateRecoveryCodesAsync services userId)

namespace TotpService

/-- At some instant the code has this time step under the secret of the credential. -/
def HasCode (services : Services) (credential : TotpCredential) (code : String) (timeStep : ℤ) :
    Prop :=
  ∃ secret now, services.totp.unprotect credential.secretEncrypted = some secret ∧
    services.totp.verifyTotp secret now code = some timeStep

section Rules

variable {services : Services} {law : Law Input World Event} {call : ℕ}
variable {K : State → State → Prop} {state : State}

theorem wp_matchTotp (calm : Calm law call K) {credential : TotpCredential} {code : String}
    {post : Except AppException (Option ℤ) → State → Prop}
    (matched : ∀ later found, K state later →
      (∀ timeStep, found = some timeStep → HasCode services credential code timeStep) →
      post (.ok found) later)
    (threw : ∀ exception, post (.error exception) state) :
    (matchTotp services credential code).wp law call post state := by
  simp only [matchTotp, Program.wp_bind, Action.wp_orThrow]
  cases opened : services.totp.unprotect credential.secretEncrypted with
  | none => exact threw _
  | some secret =>
      simp only [Program.andThen_ok, Program.wp_bind]
      refine Action.calm_utcNow calm ?_
      intro later read
      refine matched later _ read ?_
      intro timeStep found
      exact ⟨secret, later.last.now, opened, found⟩

theorem keeps_newCodes [∀ call, Calm law call K] (count : ℕ) :
    Keeps law K (newCodes services count) := by
  induction count with
  | zero => exact .pure _
  | succ count inductionHypothesis =>
      exact .bind .draw fun _ => .bind inductionHypothesis fun _ => .pure _

theorem keeps_newRecoveryCodes [∀ call, Calm law call K] (userId : Guid) (codes : List String) :
    Keeps law K (newRecoveryCodes services userId codes) := by
  induction codes with
  | nil => exact .pure _
  | cons code rest inductionHypothesis =>
      apply Keeps.bind .draw
      intro drawn
      apply Keeps.bind .draw
      intro _
      exact .bind inductionHypothesis fun _ => .pure _

/-- Inserting recovery codes writes no other table. -/
theorem insertRecoveryCodes_ok {now : Instant} {rows : List RecoveryCode} {db after : Db}
    (saved : rows.foldlM (fun db row => db.insertRecoveryCode now row) db = .ok after) :
    ∃ recoveryCodes, after = { db with recoveryCodes } := by
  induction rows generalizing db with
  | nil =>
      cases saved
      exact ⟨_, rfl⟩
  | cons row rest inductionHypothesis =>
      rw [List.foldlM_cons] at saved
      obtain ⟨middle, inserted, remaining⟩ := bind_eq_ok.mp saved
      obtain ⟨codes, -, equal⟩ := bind_eq_ok.mp inserted
      rw [pure_eq_ok.mp equal] at remaining
      obtain ⟨recoveryCodes, rfl⟩ := inductionHypothesis remaining
      exact ⟨recoveryCodes, rfl⟩

/-- What is to be shown of `ReplaceRecoveryCodesAsync` run by `call` from `state`: that deleting
the old codes stays within `K`, and what the save of the new ones comes to. -/
structure Replacement (law : Law Input World Event) (call : ℕ) (K : State → State → Prop)
    (state : State) (pending : Instant → Db → Except AppException Db) (events : Db → List Event)
    (post : Except AppException RecoveryCodesResponse → State → Prop) : Prop where
  deleted : ∀ current input recoveryCodes, K state current → law.admits current call input [] →
    let written := current.wrote input { current.store.db with recoveryCodes }
    law.guarantee call current written ∧ K current written
  saved : ∀ current input middle recoveryCodes, K state current →
    pending input.now current.store.db = .ok middle →
    law.admits current call input (events current.store.db) →
    let written := current.advance call input
      ({ current.store with db := { middle with recoveryCodes } }, events current.store.db)
    law.guarantee call current written ∧ ∀ response, post (.ok response) written
  refused : ∀ current exception, K state current → post (.error exception) current

theorem wp_replaceRecoveryCodesAsync [∀ call, Calm law call K] {userId : Guid}
    {pending : Instant → Db → Except AppException Db} {events : Db → List Event}
    {post : Except AppException RecoveryCodesResponse → State → Prop}
    (correct : Replacement law call K state pending events post) :
    (replaceRecoveryCodesAsync services userId pending events).wp law call post state := by
  have calm : Calm law call K := inferInstance
  simp only [replaceRecoveryCodesAsync, Program.wp_bind]
  refine Action.wp_execute calm ?_
  intro found input reached admitted
  rw [Shared.advance_wrote]
  obtain ⟨kept, stays⟩ := correct.deleted found input _ reached admitted
  refine ⟨kept, ?_⟩
  simp only [Program.andThen_ok]
  refine Program.wp_bind_of
    (keeps_newCodes recoveryCodeCount |>.after (calm.trans _ _ _ reached stays))
    ?_ fun exception current later => correct.refused current exception later
  intro plaintext drawn drew
  refine Program.wp_bind_of ((keeps_newRecoveryCodes userId plaintext).after drew) ?_
    fun exception current later => correct.refused current exception later
  intro rows created create
  rw [Program.wp_bind]
  refine Action.calm_utcNow calm ?_
  intro generated generate
  have whole := calm.trans _ _ _ create generate
  simp only [Program.andThen_ok, Program.wp_bind]
  refine Action.wp_saveChanges calm ?_ ?_
  · intro current saving db later saved savedAdmitted
    obtain ⟨middle, sent, inserted⟩ := bind_eq_ok.mp saved
    obtain ⟨recoveryCodes, rfl⟩ := insertRecoveryCodes_ok inserted
    obtain ⟨written, answers⟩ := correct.saved current saving middle recoveryCodes
      (calm.trans _ _ _ whole later) sent savedAdmitted
    exact ⟨written, answers _⟩
  · intro current after exception now later rests _
    exact correct.refused after exception (calm.trans _ _ _ (calm.trans _ _ _ whole later) rests)

end Rules

end TotpService

end AuthStartpack
