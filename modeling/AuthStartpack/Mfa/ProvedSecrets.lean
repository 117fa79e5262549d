import AuthStartpack.Mfa.TotpOperations
import AuthStartpack.Program.Pool
import AuthStartpack.Services.Frames

/-!
Owns what a confirmed authenticator has proved. `EnrollAsync` checks that the
credential is unconfirmed and overwrites its secret in a later step, and
`ConfirmAsync` matches a code against the secret it read and confirms whatever is
stored later. So a confirmed secret is one that a code was matched against in the
interleavings in which neither save has been overtaken by the other operation.
-/

namespace AuthStartpack

/-- An enrolment finds the credential confirmed or not as it had read it, and a confirmation that
confirms a credential finds the secret that its code was matched against. -/
def Event.Guarded (credentials : List TotpCredential) : Event → Prop
  | .totpSecretReplaced credential =>
      ∀ row ∈ credentials, row.id = credential.id → row.confirmedAt = credential.confirmedAt
  | .totpConfirmed credential _ _ =>
      ∀ row ∈ credentials, row.id = credential.id → row.confirmedAt = none →
        row.secretEncrypted = credential.secretEncrypted
  | _ => True

instance (credentials : List TotpCredential) : DecidablePred (Event.Guarded credentials) := by
  intro event
  unfold Event.Guarded
  split <;> infer_instance

def GuardsSecrets (state : State) (_ : ℕ) (_ : Input) (events : List Event) : Prop :=
  ∀ event ∈ events, event.Guarded state.store.db.totpCredentials

instance (state : State) (call : ℕ) (input : Input) (events : List Event) :
    Decidable (GuardsSecrets state call input events) :=
  inferInstanceAs (Decidable (∀ event ∈ events, event.Guarded state.store.db.totpCredentials))

/-- A confirmed credential that has stayed confirmed with its secret. -/
structure TotpCredential.Stays (old later : TotpCredential) : Prop where
  id : old.id = later.id
  secret : old.secretEncrypted = later.secretEncrypted
  confirmed : old.confirmedAt ≠ none

/-- The event is the confirmation of this secret by a code that it has. -/
def Event.Proves (services : Services) (row : TotpCredential) (event : Event) : Prop :=
  ∃ credential code timeStep, event = .totpConfirmed credential code timeStep ∧
    credential.id = row.id ∧ credential.secretEncrypted = row.secretEncrypted ∧
    TotpService.HasCode services credential code timeStep

/-- The secret was confirmed from the beginning, or a code was matched against it by a
confirmation of its credential. -/
def Proved (services : Services) (start : State) (row : TotpCredential) (state : State) : Prop :=
  (∃ old ∈ start.store.db.totpCredentials, old.Stays row) ∨
    ∃ entry ∈ state.journal, entry.event.Proves services row

/-- Whatever is confirmed is proved. -/
def AllProved (services : Services) (start state : State) : Prop :=
  ∀ row ∈ state.store.db.totpCredentials, row.confirmedAt ≠ none → Proved services start row state

/-- What every step of an operation on authenticators keeps. -/
def KeepsProved (services : Services) (start before after : State) : Prop :=
  AllProved services start before → AllProved services start after

section Steps

variable {services : Services} {start : State}

/-- A step after which every confirmed row stays confirmed, or is proved by the step. -/
theorem KeepsProved.of_step {state : State} {call : ℕ} {input : Input} {world : World}
    {events : List Event}
    (rows : ∀ row ∈ world.db.totpCredentials, row.confirmedAt ≠ none →
      (∃ old ∈ state.store.db.totpCredentials, old.Stays row) ∨
        ∃ event ∈ events, event.Proves services row) :
    KeepsProved services start state (state.advance call input (world, events)) := by
  intro proved row member confirmed
  rcases rows row member confirmed with ⟨old, oldMember, stays⟩ | ⟨event, reported, proves⟩
  · rcases proved old oldMember stays.confirmed with
      ⟨first, firstMember, earlier⟩ | ⟨entry, entryMember, credential, code, timeStep,
        equal, sameId,
        sameSecret, has⟩
    · exact .inl ⟨first, firstMember, earlier.id.trans stays.id, earlier.secret.trans stays.secret,
        earlier.confirmed⟩
    · exact .inr ⟨entry, List.mem_append_left _ entryMember, credential, code, timeStep, equal,
        sameId.trans stays.id, sameSecret.trans stays.secret, has⟩
  · exact .inr ⟨_, List.mem_append_right _ (List.mem_map_of_mem reported), proves⟩

/-- A write of columns that keeps the secret and the confirmation. -/
theorem stays_of_rewrite {rows : List TotpCredential} {pred : TotpCredential → Bool}
    {write : TotpCredential → TotpCredential}
    (keeps : ∀ row, (write row).id = row.id ∧ (write row).secretEncrypted = row.secretEncrypted ∧
      (write row).confirmedAt = row.confirmedAt) {row : TotpCredential}
    (member : row ∈ Table.updateWhere pred write rows) (confirmed : row.confirmedAt ≠ none) :
    ∃ old ∈ rows, old.Stays row := by
  rcases Table.mem_updateWhere_cases member with ⟨old, -⟩ | ⟨old, oldMember, -, rfl⟩
  · exact ⟨row, old, rfl, rfl, confirmed⟩
  · obtain ⟨sameId, sameSecret, sameConfirmation⟩ := keeps old
    exact ⟨old, oldMember, sameId.symm, sameSecret.symm, sameConfirmation ▸ confirmed⟩

end Steps

/-- Any interleaving in which no save has been overtaken. -/
def Law.proving (services : Services) (start : State) : Law Input World Event :=
  .concurrent GuardsSecrets (KeepsProved services start)

instance (services : Services) (start : State) :
    Frames (.proving services start) (KeepsProved services start) Db.totpCredentials
      fun _ => False := by
  refine Frames.concurrent (fun _ => id) (fun _ _ _ early late => late ∘ early) (fun _ _ => rfl) ?_
  intro state call input world events _ same _ _
  refine KeepsProved.of_step ?_
  intro row member confirmed
  rw [same] at member
  exact .inl ⟨row, member, rfl, rfl, confirmed⟩

namespace TotpService

variable {services : Services} {start : State}

theorem enrollAsync_proving (userId : Guid) :
    Keeps (.proving services start) (KeepsProved services start) (enrollAsync services userId) := by
  refine .bind (.queryOrThrow _) fun found => .bind (.orThrow _ found) fun user => ?_
  by_cases enrolled : user.2.any (·.confirmedAt.isSome) = true
  case pos =>
    rw [if_pos enrolled]
    exact .throw _
  rw [if_neg enrolled]
  refine .bind .draw fun secretNumber => .bind .draw fun nonce => ?_
  cases existing : user.2 with
  | none =>
      refine .bind .draw fun id => .bind (.saveChanges ?_) fun _ => .pure _
      intro call began current input db relied saved _
      obtain ⟨-, rfl⟩ := Db.insertTotpCredential_eq_ok.mp saved
      have written : KeepsProved services start current (current.advance call input
          ({ current.store with db := { current.store.db with
            totpCredentials := current.store.db.totpCredentials ++
              [{ id, userId, createdAt := input.now, updatedAt := input.now
                 secretEncrypted :=
                   services.totp.protect (services.totp.newSecret secretNumber) nonce }] } },
            [])) := by
        refine .of_step ?_
        intro row member confirmed
        rcases List.mem_append.mp member with old | new
        · exact .inl ⟨row, old, rfl, rfl, confirmed⟩
        · rw [List.mem_singleton.mp new] at confirmed
          exact absurd rfl confirmed
      exact ⟨written, written ∘ relied.1⟩
  | some credential =>
      have unread : credential.confirmedAt = none := by simpa [existing] using enrolled
      refine .bind (.saveChanges ?_) fun _ => .pure _
      intro call began current input db relied saved guarded
      obtain ⟨-, rfl⟩ := Db.updateTotpCredential_eq_ok.mp saved
      let replaced : TotpCredential := { credential with
        secretEncrypted := services.totp.protect (services.totp.newSecret secretNumber) nonce }
      have written : KeepsProved services start current (current.advance call input
          ({ current.store with db := { current.store.db with
            totpCredentials := Table.updateWhere
              (fun stored => stored.id = credential.id && replaced ≠ credential)
              (credential.merge replaced input.now) current.store.db.totpCredentials } },
            [.totpSecretReplaced credential])) := by
        refine .of_step ?_
        intro row member confirmed
        rcases Table.mem_updateWhere_cases member with ⟨old, -⟩ | ⟨old, oldMember, hit, rfl⟩
        · exact .inl ⟨row, old, rfl, rfl, confirmed⟩
        · have sameId : old.id = credential.id := by
            simp only [Bool.and_eq_true, decide_eq_true_eq] at hit
            exact hit.1
          have unconfirmed : old.confirmedAt = none := by
            have unchanged := guarded (.totpSecretReplaced credential) List.mem_cons_self
            exact (unchanged old oldMember sameId).trans unread
          simp only [TotpCredential.merge, replaced, changed_self] at confirmed
          exact absurd unconfirmed confirmed
      exact ⟨written, written ∘ relied.1⟩

/-- The save of a confirmation whose code was matched. -/
theorem confirmation_proves {current : State} {call : ℕ} {input : Input}
    {credential confirmed : TotpCredential} {code : String} {timeStep : ℤ}
    {recoveryCodes : List RecoveryCode} (matched : HasCode services credential code timeStep)
    (sameSecret : confirmed.secretEncrypted = credential.secretEncrypted)
    (guarded : GuardsSecrets current call input [.totpConfirmed credential code timeStep]) :
    KeepsProved services start current (current.advance call input
      ({ current.store with db := { current.store.db with
        totpCredentials := Table.updateWhere
          (fun stored => stored.id = credential.id && confirmed ≠ credential)
          (credential.merge confirmed input.now) current.store.db.totpCredentials
        recoveryCodes := recoveryCodes } }, [.totpConfirmed credential code timeStep])) := by
  refine .of_step ?_
  intro row member isConfirmed
  rcases Table.mem_updateWhere_cases member with ⟨old, -⟩ | ⟨old, oldMember, hit, rfl⟩
  · exact .inl ⟨row, old, rfl, rfl, isConfirmed⟩
  · have sameId : old.id = credential.id := by
      simp only [Bool.and_eq_true, decide_eq_true_eq] at hit
      exact hit.1
    have keepsSecret : (credential.merge confirmed input.now old).secretEncrypted =
        old.secretEncrypted := by
      simp [TotpCredential.merge, sameSecret]
    by_cases unconfirmed : old.confirmedAt = none
    · have stored : old.secretEncrypted = credential.secretEncrypted :=
        guarded (.totpConfirmed credential code timeStep) List.mem_cons_self old oldMember sameId
          unconfirmed
      exact .inr ⟨_, List.mem_cons_self, credential, code, timeStep, rfl, sameId.symm,
        stored.symm.trans keepsSecret.symm, matched⟩
    · exact .inl ⟨old, oldMember, rfl, keepsSecret.symm, unconfirmed⟩

theorem confirmAsync_proving (userId : Guid) (code : String) :
    Keeps (.proving services start) (KeepsProved services start)
      (confirmAsync services userId code) := by
  intro call began
  have calm : Calm (.proving services start) call (KeepsProved services start) := inferInstance
  simp only [confirmAsync, Program.wp_bind]
  refine Action.calm_queryOrThrow calm ?_
  intro seen see
  cases Action.singleOrDefault (seen.store.db.totpCredentials.filter (·.userId = userId)) with
  | error exception => exact see
  | ok queried =>
  simp only [Program.andThen_ok, Program.wp_bind, Action.wp_orThrow]
  cases queried with
  | none => exact see
  | some credential =>
  simp only
  refine wp_matchTotp calm ?_ fun exception => see
  intro read answered reading matched
  have reached := calm.trans _ _ _ see reading
  simp only [Program.andThen_ok, Program.wp_bind, Action.wp_orThrow]
  cases answered with
  | none => exact reached
  | some timeStep =>
  simp only
  refine Action.calm_utcNow calm ?_
  intro stamped stamp
  have before := calm.trans _ _ _ reached stamp
  let confirmed : TotpCredential :=
    { credential with confirmedAt := some stamped.last.now, lastUsedTimeStep := some timeStep }
  have correct : Replacement (.proving services start) call (KeepsProved services start) stamped
      (fun now db => db.updateTotpCredential now credential confirmed)
      (fun _ => [.totpConfirmed credential code timeStep])
      (fun _ after => KeepsProved services start began after) := by
    constructor
    case deleted =>
      intro current input recoveryCodes _ admitted
      have written : KeepsProved services start current
          (current.wrote input { current.store.db with recoveryCodes }) := by
        rw [← Shared.advance_wrote current call]
        refine .of_step ?_
        intro row member isConfirmed
        exact .inl ⟨row, member, rfl, rfl, isConfirmed⟩
      exact ⟨written, written⟩
    case refused =>
      intro current exception later
      exact calm.trans _ _ _ before later
    case saved =>
      intro current input middle recoveryCodes later saved guarded
      obtain ⟨-, rfl⟩ := Db.updateTotpCredential_eq_ok.mp saved
      have has := matched timeStep rfl
      refine ⟨confirmation_proves has rfl guarded, fun response => ?_⟩
      exact calm.trans _ _ _ (calm.trans _ _ _ before later) (confirmation_proves has rfl guarded)
  refine Program.wp_bind_of (wp_replaceRecoveryCodesAsync correct) ?_ fun _ _ refused => refused
  intro response current kept
  have notified : Keeps (.proving services start) (KeepsProved services start)
      (SecurityNotificationService.notifyAsync none userId "Multi-factor authentication enabled" >>=
        fun _ => Pure.pure response) := .bind (.notifyAsync _ _ _) fun _ => .pure _
  exact notified.after kept

theorem verifyAsync_proving (userId : Guid) (code : String) :
    Keeps (.proving services start) (KeepsProved services start)
      (verifyAsync services userId code) := by
  refine .bind (.queryOrThrow _) fun found => ?_
  cases found with
  | none => exact .pure _
  | some credential =>
  refine .bind ?_ fun answered => ?_
  · exact .bind (.orThrow _ _) fun _ => .bind .utcNow fun _ => .pure _
  cases answered with
  | some timeStep =>
      refine .bind .utcNow fun now => .bind (.execute ?_) fun _ => .pure _
      intro call began current input relied _
      have written : ∀ events, KeepsProved services start current (current.advance call input
          ({ current.store with db := { current.store.db with
            totpCredentials := Table.updateWhere (claimable credential.id timeStep)
              ({ · with lastUsedTimeStep := some timeStep, updatedAt := now })
              current.store.db.totpCredentials } }, events)) := by
        intro events
        refine .of_step ?_
        intro row member confirmed
        refine .inl (stays_of_rewrite ?_ member confirmed)
        intro row
        exact ⟨rfl, rfl, rfl⟩
      exact ⟨written _, written _ ∘ relied.1⟩
  | none =>
      refine .bind (.query _) fun recoveryCodes => ?_
      split
      case h_1 => exact .pure _
      case h_2 =>
        refine .bind .utcNow fun _ => .bind (.frame_reporting ?_ fun _ _ _ => id) fun _ => .pure _
        intro now db after saved
        obtain ⟨codes, rfl⟩ := Db.updateRecoveryCode_ok saved
        rfl

theorem disableAsync_proving (http : HttpContext) (userId : Guid) :
    Keeps (.proving services start) (KeepsProved services start) (disableAsync http userId) := by
  refine .bind (.execute ?_) fun deleted => .guard ?_
  · intro call began current input relied _
    have written : KeepsProved services start current (current.advance call input
        ({ current.store with db := { current.store.db with
          totpCredentials := Table.deleteWhere (enabledFor userId)
            current.store.db.totpCredentials } }, [])) := by
      refine .of_step ?_
      intro row member confirmed
      exact .inl ⟨row, (Table.mem_deleteWhere.mp member).1, rfl, rfl, confirmed⟩
    exact ⟨written, written ∘ relied.1⟩
  · refine .bind (.frame_execute (fun _ => rfl) fun _ _ _ => id) fun _ => ?_
    refine .bind (SessionService.revokeAllForUserAsync_frame (fun _ _ => rfl) _ _ _)
      fun revoked => ?_
    refine .ite ?_ ?_
    · exact .bind (.logAsync http _ _) fun _ => .notifyAsync _ _ _
    · exact .notifyAsync _ _ _

theorem regenerateRecoveryCodesAsync_proving (userId : Guid) :
    Keeps (.proving services start) (KeepsProved services start)
      (regenerateRecoveryCodesAsync services userId) := by
  apply Keeps.bind (.query _)
  intro enabled
  apply Keeps.guard
  apply Keeps.bind
  · intro call began
    have silent : ∀ current input db events,
        db.totpCredentials = current.store.db.totpCredentials → KeepsProved services start current
          (current.advance call input ({ current.store with db }, events)) := by
      intro current input db events same
      refine .of_step ?_
      intro row member confirmed
      rw [same] at member
      exact .inl ⟨row, member, rfl, rfl, confirmed⟩
    refine wp_replaceRecoveryCodesAsync (K := KeepsProved services start) ?_
    constructor
    case deleted =>
      intro current input recoveryCodes _ _
      rw [← Shared.advance_wrote current call]
      exact ⟨silent _ _ _ _ rfl, silent _ _ _ _ rfl⟩
    case saved =>
      intro current input middle recoveryCodes later sent _
      cases sent
      exact ⟨silent _ _ _ _ rfl, fun _ => silent _ _ _ _ rfl ∘ later⟩
    case refused =>
      intro current exception later
      exact later
  intro _
  exact .bind (.notifyAsync _ _ _) fun _ => .pure _

end TotpService

/-! ### Concurrent operations -/

abbrev TotpPool := Pool Input World Event AppException TotpResponse

/-- Operations on authenticators that have not begun. -/
def operatingTotp (services : Services) (operations : List TotpOperation) (start : State) :
    TotpPool where
  shared := start
  calls := operations.map (·.program services)

theorem TotpOperation.proving {services : Services} {start : State} (op : TotpOperation) :
    Keeps (.proving services start) (KeepsProved services start) (op.program services) := by
  cases op with
  | enroll userId => exact .bind (TotpService.enrollAsync_proving userId) fun _ => .pure _
  | confirm userId code =>
      exact .bind (TotpService.confirmAsync_proving userId code) fun _ => .pure _
  | verify userId code => exact .bind (TotpService.verifyAsync_proving userId code) fun _ => .pure _
  | disable http userId =>
      exact .bind (TotpService.disableAsync_proving http userId) fun _ => .pure _
  | regenerate userId =>
      exact .bind (TotpService.regenerateRecoveryCodesAsync_proving userId) fun _ => .pure _

/-- Every confirmed secret is proved in every interleaving whose saves have not been overtaken. -/
theorem allProved_of_guarded {services : Services} {operations : List TotpOperation}
    {start : State} {schedule : List (ℕ × Input)}
    (guarded : (operatingTotp services operations start).Admitted GuardsSecrets schedule) :
    AllProved services start ((operatingTotp services operations start).run schedule).shared := by
  have refl : ∀ state, KeepsProved services start state state := fun _ => id
  have trans : ∀ first second third, KeepsProved services start first second →
      KeepsProved services start second third → KeepsProved services start first third :=
    fun _ _ _ early late => late ∘ early
  have verified : (operatingTotp services operations start).Verified GuardsSecrets
      (KeepsProved services start) fun _ _ _ => True := by
    refine Pool.verified_of_wp refl ?_
    intro call program found
    simp only [operatingTotp, List.getElem?_map, Option.map_eq_some_iff] at found
    obtain ⟨op, -, rfl⟩ := found
    refine Program.wp_mono (op.proving call start) ?_
    intro _ _ _
    trivial
  obtain ⟨kept, -⟩ := Pool.run_wp refl trans verified guarded
  refine kept ?_
  intro row member confirmed
  exact .inl ⟨row, member, rfl, rfl, confirmed⟩

/-- A user whose authenticator is not confirmed yet. -/
def unconfirmedWorld : World where
  db :=
    { users := [{ id := 1, email := "ada@example.test", emailVerified := true, securityStamp := 7 }]
      totpCredentials := [{ id := 4, userId := 1, secretEncrypted := "$kk" }] }
  supply := 5

/-- An enrolment that starts again, and a confirmation with a code of the given secret. -/
def enrolAndConfirm (code : String) : TotpPool :=
  operatingTotp .sample [.enroll 1, .confirm 1 code] (Shared.initial unconfirmedWorld ⟨60, false⟩)

/-- The enrolment ends before the confirmation begins. -/
def enrolledFirst : List (ℕ × Input) :=
  List.replicate 4 (0, ⟨60, false⟩) ++ List.replicate 36 (1, ⟨61, false⟩)

/-- The confirmation runs between the check of the enrolment and its save. -/
def confirmedBeforeTheSave : List (ℕ × Input) :=
  List.replicate 3 (0, ⟨60, false⟩) ++ List.replicate 36 (1, ⟨61, false⟩) ++ [(0, ⟨62, false⟩)]

set_option maxRecDepth 40000 in
theorem allProved_of_guarded_sample :
    ((enrolAndConfirm "kkkkk").run enrolledFirst).shared.store.db.totpCredentials.map
        (fun row => (row.secretEncrypted, row.confirmedAt.isSome)) = [("nnnnnn$kkkkk", true)] ∧
      AllProved .sample (Shared.initial unconfirmedWorld ⟨60, false⟩)
        ((enrolAndConfirm "kkkkk").run enrolledFirst).shared :=
  ⟨by decide, allProved_of_guarded (Pool.admitted_of_admitted? (by decide))⟩

set_option maxRecDepth 40000 in
/-- A confirmation that runs between the check of an enrolment and its save leaves a secret
confirmed that no code was matched against. -/
theorem confirms_unproved_secret :
    ((enrolAndConfirm "kk").run confirmedBeforeTheSave).shared.store.db.totpCredentials.map
        (fun row => (row.secretEncrypted, row.confirmedAt.isSome)) = [("nnnnnn$kkkkk", true)] ∧
      ¬ AllProved .sample (Shared.initial unconfirmedWorld ⟨60, false⟩)
        ((enrolAndConfirm "kk").run confirmedBeforeTheSave).shared := by
  let row : TotpCredential :=
    { id := 4
      userId := 1
      secretEncrypted := "nnnnnn$kkkkk"
      confirmedAt := some 61
      lastUsedTimeStep := some 2
      updatedAt := 62 }
  let read : TotpCredential := { id := 4, userId := 1, secretEncrypted := "$kk" }
  have stored : row ∈
      ((enrolAndConfirm "kk").run confirmedBeforeTheSave).shared.store.db.totpCredentials := by
    decide
  have events : ((enrolAndConfirm "kk").run confirmedBeforeTheSave).shared.journal.map (·.event) =
      [.totpConfirmed read "kk" 2, .totpSecretReplaced read] := by
    decide
  refine ⟨by decide, ?_⟩
  intro proved
  rcases proved row stored (by decide) with ⟨old, member, stays⟩ | ⟨entry, member, proves⟩
  · rw [List.mem_singleton.mp member] at stays
    exact stays.confirmed rfl
  · have reported := List.mem_map_of_mem (f := fun entry => entry.event) member
    rw [events] at reported
    obtain ⟨credential, code, timeStep, equal, -, sameSecret, -⟩ := proves
    simp only [equal, List.mem_cons, Event.totpConfirmed.injEq, List.not_mem_nil, reduceCtorEq,
      or_false] at reported
    rw [reported.1] at sameSecret
    exact absurd sameSecret (by decide)

end AuthStartpack
