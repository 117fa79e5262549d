import AuthStartpack.Data.Alone
import AuthStartpack.Mfa.HighWaterMarks
import AuthStartpack.Mfa.TotpOperations
import Mathlib.Data.Int.Order.Basic

/-!
Owns the replay guard of authenticators. `LastUsedTimeStep` is the high-water
mark of a credential: verifying a code claims its time step above the mark. A
confirmation sets the mark without looking at it, so the guard holds in the runs
in which every confirmation has a step above the mark, and in no others that
confirm an old step.
-/

namespace AuthStartpack

/-- The credential and time step that a confirmation accepted. -/
def Event.confirmedStep? : Event → Option (Guid × ℤ)
  | .totpConfirmed credential _ timeStep => some (credential.id, timeStep)
  | _ => none

/-- The credential and time step that an operation accepted. -/
def Event.acceptedStep? : Event → Option (Guid × ℤ)
  | .totpConfirmed credential _ timeStep => some (credential.id, timeStep)
  | .totpVerified credentialId timeStep => some (credentialId, timeStep)
  | _ => none

/-- All accepted time steps, in their order. -/
def Shared.acceptedSteps (state : State) : List (Guid × ℤ) :=
  state.journal.filterMap fun entry => entry.event.acceptedStep?

@[simp]
theorem Shared.acceptedSteps_advance (state : State) (call : ℕ) (input : Input)
    (outcome : World × List Event) :
    (state.advance call input outcome).acceptedSteps =
      state.acceptedSteps ++ outcome.2.filterMap Event.acceptedStep? := by
  simp [Shared.acceptedSteps, List.filterMap_append, List.filterMap_map]

/-- Whatever a save confirms has a time step above the mark of the stored credential. -/
def ConfirmsForward (state : State) (_ : ℕ) (_ : Input) (events : List Event) : Prop :=
  ∀ event ∈ events, ∀ pair ∈ event.confirmedStep?, ∀ row ∈ state.store.db.totpCredentials,
    row.id = pair.1 → ∀ used ∈ row.lastUsedTimeStep, used < pair.2

instance (state : State) (call : ℕ) (input : Input) (events : List Event) :
    Decidable (ConfirmsForward state call input events) :=
  inferInstanceAs (Decidable (∀ event ∈ events, ∀ pair ∈ event.confirmedStep?,
    ∀ row ∈ state.store.db.totpCredentials, row.id = pair.1 →
      ∀ used ∈ row.lastUsedTimeStep, used < pair.2))

/-- The marks are those of the credentials, those that were deleted included. -/
structure Tracks (marks : Marks Guid ℤ) (state : State) : Prop where
  keyed : Table.Keyed TotpCredential.id state.store.db.totpCredentials
  given : ∀ row ∈ state.store.db.totpCredentials, row.id < state.store.supply
  live : ∀ row ∈ state.store.db.totpCredentials, marks.highest row.id = row.lastUsedTimeStep
  fresh : ∀ id, state.store.supply ≤ id → marks.highest id = none
  accepted : marks.accepted = state.acceptedSteps

/-- What happened was the acceptance of some time steps above their marks. -/
def Advances (before after : State) : Prop :=
  ∀ marks, Tracks marks before → ∃ later, marks.Run later ∧ Tracks later after

/-- The credentials and what was accepted stay as they are. -/
structure SameCredentials (before after : State) : Prop where
  credentials : after.store.db.totpCredentials = before.store.db.totpCredentials
  supply : before.store.supply ≤ after.store.supply
  accepted : after.acceptedSteps = before.acceptedSteps

section Steps

variable {before after : State}

theorem SameCredentials.refl (state : State) : SameCredentials state state :=
  ⟨rfl, Nat.le_refl _, rfl⟩

theorem SameCredentials.trans {first second third : State} (early : SameCredentials first second)
    (late : SameCredentials second third) : SameCredentials first third :=
  ⟨late.credentials.trans early.credentials, Nat.le_trans early.supply late.supply,
    late.accepted.trans early.accepted⟩

theorem SameCredentials.advances (same : SameCredentials before after) : Advances before after := by
  intro marks tracks
  refine ⟨marks, .refl, ?_⟩
  constructor
  · rw [same.credentials]
    exact tracks.keyed
  · rw [same.credentials]
    intro row member
    exact Nat.lt_of_lt_of_le (tracks.given row member) same.supply
  · rw [same.credentials]
    exact tracks.live
  · intro id reached
    exact tracks.fresh id (Nat.le_trans same.supply reached)
  · rw [same.accepted]
    exact tracks.accepted

theorem Advances.trans {first second third : State} (early : Advances first second)
    (late : Advances second third) : Advances first third := by
  intro marks tracks
  obtain ⟨middle, earlyRun, middleTracks⟩ := early marks tracks
  obtain ⟨later, lateRun, laterTracks⟩ := late middle middleTracks
  exact ⟨later, earlyRun.trans lateRun, laterTracks⟩

/-- A new credential starts without a mark. -/
theorem advances_of_insert {row : TotpCredential} (drawn : before.store.supply ≤ row.id)
    (given : row.id < after.store.supply) (unused : row.lastUsedTimeStep = none)
    (credentials : after.store.db.totpCredentials = before.store.db.totpCredentials ++ [row])
    (accepted : after.acceptedSteps = before.acceptedSteps) : Advances before after := by
  intro marks tracks
  refine ⟨marks, .refl, ?_⟩
  constructor
  case keyed =>
    rw [credentials]
    refine tracks.keyed.append ?_
    intro other member same
    exact Nat.lt_irrefl _ (Nat.lt_of_lt_of_le (same ▸ tracks.given other member) drawn)
  case given =>
    intro other member
    rw [credentials] at member
    rcases List.mem_append.mp member with old | new
    · exact Nat.lt_trans (Nat.lt_of_lt_of_le (tracks.given other old) drawn) given
    · rw [List.mem_singleton.mp new]
      exact given
  case live =>
    intro other member
    rw [credentials] at member
    rcases List.mem_append.mp member with old | new
    · exact tracks.live other old
    · rw [List.mem_singleton.mp new, unused]
      exact tracks.fresh row.id drawn
  case fresh =>
    intro id reached
    exact tracks.fresh id (Nat.le_trans drawn (Nat.le_trans (Nat.le_of_lt given) reached))
  case accepted => exact tracks.accepted.trans accepted.symm

/-- Rewriting credentials without their marks. -/
theorem advances_of_rewrite {write : TotpCredential → TotpCredential}
    (keeps : ∀ row, (write row).id = row.id ∧ (write row).lastUsedTimeStep = row.lastUsedTimeStep)
    (supply : after.store.supply = before.store.supply)
    (credentials : after.store.db.totpCredentials = before.store.db.totpCredentials.map write)
    (accepted : after.acceptedSteps = before.acceptedSteps) : Advances before after := by
  intro marks tracks
  have origin : ∀ row ∈ after.store.db.totpCredentials, ∃ old ∈ before.store.db.totpCredentials,
      row.id = old.id ∧ row.lastUsedTimeStep = old.lastUsedTimeStep := by
    intro row member
    rw [credentials] at member
    obtain ⟨old, oldMember, rfl⟩ := List.mem_map.mp member
    exact ⟨old, oldMember, keeps old⟩
  refine ⟨marks, .refl, ?_⟩
  constructor
  case keyed =>
    have ids : after.store.db.totpCredentials.map TotpCredential.id =
        before.store.db.totpCredentials.map TotpCredential.id := by
      rw [credentials, List.map_map]
      exact List.map_congr_left fun row _ => (keeps row).1
    unfold Table.Keyed
    rw [ids]
    exact tracks.keyed
  case given =>
    intro row member
    obtain ⟨old, oldMember, sameId, -⟩ := origin row member
    rw [sameId, supply]
    exact tracks.given old oldMember
  case live =>
    intro row member
    obtain ⟨old, oldMember, sameId, sameMark⟩ := origin row member
    rw [sameId, sameMark]
    exact tracks.live old oldMember
  case fresh =>
    rw [supply]
    exact tracks.fresh
  case accepted => exact tracks.accepted.trans accepted.symm

/-- A time step above the mark of a credential is accepted, and becomes its mark. -/
theorem advances_of_accept {credential : TotpCredential} {timeStep : ℤ}
    {write : TotpCredential → TotpCredential}
    (member : credential ∈ before.store.db.totpCredentials)
    (above : ∀ used ∈ credential.lastUsedTimeStep, used < timeStep)
    (keepsId : ∀ row, (write row).id = row.id)
    (marked : (write credential).lastUsedTimeStep = some timeStep)
    (others : ∀ row ∈ before.store.db.totpCredentials, row.id ≠ credential.id →
      (write row).lastUsedTimeStep = row.lastUsedTimeStep)
    (supply : after.store.supply = before.store.supply)
    (credentials : after.store.db.totpCredentials = before.store.db.totpCredentials.map write)
    (accepted : after.acceptedSteps = before.acceptedSteps ++ [(credential.id, timeStep)]) :
    Advances before after := by
  intro marks tracks
  have reached : marks.Above credential.id timeStep := by
    intro mark highest
    rw [tracks.live credential member] at highest
    exact above mark highest
  refine ⟨marks.accept credential.id timeStep, .single (.accept _ _ reached), ?_⟩
  constructor
  case keyed =>
    have ids : after.store.db.totpCredentials.map TotpCredential.id =
        before.store.db.totpCredentials.map TotpCredential.id := by
      rw [credentials, List.map_map]
      exact List.map_congr_left fun row _ => keepsId row
    unfold Table.Keyed
    rw [ids]
    exact tracks.keyed
  case given =>
    intro row rowMember
    rw [credentials] at rowMember
    obtain ⟨old, oldMember, rfl⟩ := List.mem_map.mp rowMember
    rw [keepsId, supply]
    exact tracks.given old oldMember
  case live =>
    intro row rowMember
    rw [credentials] at rowMember
    obtain ⟨old, oldMember, rfl⟩ := List.mem_map.mp rowMember
    rw [keepsId]
    by_cases same : old.id = credential.id
    · rw [tracks.keyed.eq_of_key oldMember member same, marked]
      simp [Marks.accept]
    · rw [others old oldMember same, ← tracks.live old oldMember]
      simp [Marks.accept, Function.update_of_ne same]
  case fresh =>
    intro id beyond
    rw [supply] at beyond
    have other : id ≠ credential.id :=
      Nat.ne_of_gt (Nat.lt_of_lt_of_le (tracks.given credential member) beyond)
    simpa [Marks.accept, Function.update_of_ne other] using tracks.fresh id beyond
  case accepted =>
    rw [accepted, ← tracks.accepted]
    rfl

/-- The save of a confirmation accepts its time step, if it is above the mark. -/
theorem advances_of_confirm {credential confirmed : TotpCredential} {timeStep : ℤ}
    {savedAt : Instant} (member : credential ∈ before.store.db.totpCredentials)
    (above : ∀ used ∈ credential.lastUsedTimeStep, used < timeStep)
    (marks : confirmed.lastUsedTimeStep = some timeStep)
    (supply : after.store.supply = before.store.supply)
    (credentials : after.store.db.totpCredentials =
      Table.updateWhere (fun stored => stored.id = credential.id && confirmed ≠ credential)
        (credential.merge confirmed savedAt) before.store.db.totpCredentials)
    (accepted : after.acceptedSteps = before.acceptedSteps ++ [(credential.id, timeStep)]) :
    Advances before after := by
  have changes : confirmed ≠ credential := by
    intro same
    exact absurd (above timeStep (same ▸ marks)) (Int.lt_irrefl _)
  refine advances_of_accept member above ?_ ?_ ?_ supply credentials accepted
  · intro row
    dsimp only
    split <;> rfl
  · simp [changes, TotpCredential.merge, marks]
  · intro row _ other
    simp [other]

/-- Deleted credentials keep their marks. -/
theorem advances_of_delete {pred : TotpCredential → Bool}
    (supply : after.store.supply = before.store.supply)
    (credentials : after.store.db.totpCredentials =
      Table.deleteWhere pred before.store.db.totpCredentials)
    (accepted : after.acceptedSteps = before.acceptedSteps) : Advances before after := by
  intro marks tracks
  have older : ∀ row ∈ after.store.db.totpCredentials, row ∈ before.store.db.totpCredentials := by
    intro row member
    rw [credentials, Table.mem_deleteWhere] at member
    exact member.1
  refine ⟨marks, .refl, ?_⟩
  constructor
  · rw [credentials]
    exact tracks.keyed.deleteWhere
  · rw [supply]
    exact fun row member => tracks.given row (older row member)
  · exact fun row member => tracks.live row (older row member)
  · rw [supply]
    exact tracks.fresh
  · exact tracks.accepted.trans accepted.symm

end Steps

/-! ### Operations -/

/-- Uninterrupted operations that confirm forward. -/
abbrev Law.forward : Law Input World Event := .alone ConfirmsForward fun _ _ => True

section Calm

variable {admits : State → ℕ → Input → List Event → Prop}

theorem sameCredentials_of_quiet {state : State} {call : ℕ} {input : Input} {world : World}
    (step : QuietStep state.store world) :
    SameCredentials state (state.advance call input (world, [])) := by
  obtain ⟨auditLogEntries, equal⟩ := step.db
  exact ⟨by rw [Shared.advance_store, equal], step.supply, by simp⟩

instance (call : ℕ) : Calm (.alone admits fun _ _ => True) call SameCredentials where
  refl := .refl
  trans _ _ _ := .trans
  rely _ _ same := same ▸ .refl _
  quiet _ _ _ _ step := ⟨trivial, sameCredentials_of_quiet step⟩

instance (call : ℕ) : Calm (.alone admits fun _ _ => True) call Advances where
  refl state := (SameCredentials.refl state).advances
  trans _ _ _ := .trans
  rely before _ same := same ▸ (SameCredentials.refl before).advances
  quiet _ _ _ _ step := ⟨trivial, (sameCredentials_of_quiet step).advances⟩

/-- A bulk statement on another table. -/
theorem Keeps.execute_elsewhere {count : Db → ℕ} {write : Db → Db}
    (same : ∀ db, (write db).totpCredentials = db.totpCredentials) :
    Keeps (.alone admits fun _ _ => True) Advances (Action.execute count write fun _ => []) := by
  refine execute ?_
  rintro call start _ input rfl -
  exact ⟨trivial, (SameCredentials.advances ⟨same _, Nat.le_refl _, by simp⟩)⟩

end Calm

/-- A time step of a credential of this user was accepted. -/
def Accepts (userId : Guid) (before after : State) : Prop :=
  ∃ credential ∈ before.store.db.totpCredentials, credential.userId = userId ∧
    ∃ timeStep, after.acceptedSteps = before.acceptedSteps ++ [(credential.id, timeStep)]

theorem Accepts.later {userId : Guid} {before after later : State}
    (accepts : Accepts userId before after) (same : SameCredentials after later) :
    Accepts userId before later := by
  obtain ⟨credential, member, owns, timeStep, accepted⟩ := accepts
  exact ⟨credential, member, owns, timeStep, same.accepted.trans accepted⟩

theorem Accepts.earlier {userId : Guid} {before seen after : State}
    (same : SameCredentials before seen) (accepts : Accepts userId seen after) :
    Accepts userId before after := by
  obtain ⟨credential, member, owns, timeStep, accepted⟩ := accepts
  exact ⟨credential, same.credentials ▸ member, owns, timeStep, same.accepted ▸ accepted⟩

namespace TotpService

variable (services : Services)

/-- A save that fails leaves everything. -/
theorem advances_observed (state : State) (input : Input) : Advances state (state.observed input) :=
  SameCredentials.advances ⟨rfl, Nat.le_refl _, rfl⟩

theorem enrollAsync_advances (userId : Guid) :
    Keeps .forward Advances (enrollAsync services userId) := by
  apply Keeps.bind (.queryOrThrow _)
  intro found
  apply Keeps.bind (.orThrow _ found)
  intro user
  apply Keeps.guard
  refine .bind .draw fun secretNumber => .bind .draw fun nonce => ?_
  cases user.2 with
  | none =>
      intro call start
      simp only [Program.wp_bind]
      refine alone_draw ?_
      intro drawing _
      simp only [Program.andThen_ok, Program.wp_bind]
      refine alone_saveChanges ?_ ?_
      · intro input db saved _
        obtain ⟨-, rfl⟩ := Db.insertTotpCredential_eq_ok.mp saved
        exact advances_of_insert (Nat.le_refl _) (Nat.lt_succ_self _) rfl rfl
          (by simp [Shared.acceptedSteps])
      · intro input exception _ _
        exact SameCredentials.advances ⟨rfl, Nat.le_succ _, rfl⟩
  | some credential =>
      refine .bind (.saveChanges ?_) fun _ => .pure _
      rintro call start _ input db rfl saved -
      obtain ⟨-, rfl⟩ := Db.updateTotpCredential_eq_ok.mp saved
      refine ⟨trivial, advances_of_rewrite ?_ rfl rfl (by simp [Event.acceptedStep?])⟩
      intro row
      dsimp only
      split
      · exact ⟨rfl, changed_self _ _⟩
      · exact ⟨rfl, rfl⟩

theorem confirmAsync_advances (userId : Guid) (code : String) (call : ℕ) (start : State) :
    (confirmAsync services userId code).wp .forward call
      (fun outcome after => Advances start after ∧
        ((∃ response, outcome = .ok response) → Accepts userId start after)) start := by
  have calm : Calm .forward call SameCredentials := inferInstance
  simp only [confirmAsync, Program.wp_bind]
  refine Action.calm_queryOrThrow calm ?_
  intro seen see
  cases found : Action.singleOrDefault
      (seen.store.db.totpCredentials.filter (·.userId = userId)) with
  | error exception => exact ⟨see.advances, by rintro ⟨_, ⟨⟩⟩⟩
  | ok queried =>
  simp only [Program.andThen_ok, Program.wp_bind, Action.wp_orThrow]
  cases queried with
  | none => exact ⟨see.advances, by rintro ⟨_, ⟨⟩⟩⟩
  | some credential =>
  obtain ⟨member, owns⟩ := Action.mem_of_singleOrDefault found
  simp only
  refine wp_matchTotp calm ?_ fun exception => ⟨see.advances, by rintro ⟨_, ⟨⟩⟩⟩
  intro read answered reading _
  have reached := see.trans reading
  simp only [Program.andThen_ok, Program.wp_bind, Action.wp_orThrow]
  cases answered with
  | none => exact ⟨reached.advances, by rintro ⟨_, ⟨⟩⟩⟩
  | some timeStep =>
  simp only
  refine Action.calm_utcNow calm ?_
  intro stamped stamp
  have begun := reached.trans stamp
  let confirmed : TotpCredential :=
    { credential with confirmedAt := some stamped.last.now, lastUsedTimeStep := some timeStep }
  have correct : Replacement .forward call SameCredentials stamped
      (fun now db => db.updateTotpCredential now credential confirmed)
      (fun _ => [.totpConfirmed credential code timeStep])
      (fun outcome after => Advances start after ∧
        ((∃ response, outcome = .ok response) → Accepts userId start after)) := by
    constructor
    case deleted =>
      intro current input recoveryCodes _ _
      exact ⟨trivial, rfl, Nat.le_refl _, rfl⟩
    case refused =>
      intro current exception later
      exact ⟨(begun.trans later).advances, by rintro ⟨_, ⟨⟩⟩⟩
    case saved =>
      intro current input middle recoveryCodes later saved admitted
      have whole := begun.trans later
      obtain ⟨-, rfl⟩ := Db.updateTotpCredential_eq_ok.mp saved
      have present : credential ∈ current.store.db.totpCredentials := by
        rw [whole.credentials, ← see.credentials]
        exact member
      have above : ∀ used ∈ credential.lastUsedTimeStep, used < timeStep :=
        admitted _ (List.mem_singleton_self _) (credential.id, timeStep) rfl credential present rfl
      let written : World := { current.store with
        db := { current.store.db with
          totpCredentials := Table.updateWhere
            (fun stored => stored.id = credential.id && confirmed ≠ credential)
            (credential.merge confirmed input.now) current.store.db.totpCredentials
          recoveryCodes := recoveryCodes } }
      have advances : Advances current
          (current.advance call input (written, [.totpConfirmed credential code timeStep])) :=
        advances_of_confirm present above rfl rfl rfl (by simp [Event.acceptedStep?])
      refine ⟨trivial, fun response => ⟨whole.advances.trans advances, fun _ => ?_⟩⟩
      refine .earlier whole ⟨credential, present, by simpa using owns, timeStep, ?_⟩
      simp [Event.acceptedStep?]
  refine Program.wp_bind_of (wp_replaceRecoveryCodesAsync correct) ?_ fun _ _ refused =>
    ⟨refused.1, by rintro ⟨_, ⟨⟩⟩⟩
  rintro response current ⟨advances, accepts⟩
  have notified : Keeps .forward SameCredentials
      (SecurityNotificationService.notifyAsync none userId "Multi-factor authentication enabled") :=
    .notifyAsync _ _ _
  refine Program.wp_bind_of (notified call current) ?_ ?_
  · intro _ later same
    exact ⟨advances.trans same.advances, fun _ => (accepts ⟨response, rfl⟩).later same⟩
  · intro exception later same
    exact ⟨advances.trans same.advances, by rintro ⟨_, ⟨⟩⟩⟩

/-- A claim of a time step accepts it, if it affects the row. -/
theorem advances_of_claim {before after : State} {credential : TotpCredential} {timeStep : ℤ}
    {now : Instant} (member : credential ∈ before.store.db.totpCredentials)
    (supply : after.store.supply = before.store.supply)
    (credentials : after.store.db.totpCredentials =
      Table.updateWhere (claimable credential.id timeStep)
        ({ · with lastUsedTimeStep := some timeStep, updatedAt := now })
        before.store.db.totpCredentials)
    (accepted : after.acceptedSteps = before.acceptedSteps ++
      if before.store.db.totpCredentials.countP (claimable credential.id timeStep) = 1 then
        [(credential.id, timeStep)] else []) : Advances before after := by
  intro marks tracks
  -- Only the row of the credential can be affected, as ids are different.
  have only : ∀ row ∈ before.store.db.totpCredentials,
      claimable credential.id timeStep row = true → row = credential := by
    intro row rowMember hit
    simp only [claimable, Bool.and_eq_true, decide_eq_true_eq] at hit
    exact tracks.keyed.eq_of_key rowMember member hit.1
  by_cases hit : claimable credential.id timeStep credential = true
  · have one : before.store.db.totpCredentials.countP (claimable credential.id timeStep) = 1 := by
      have same : before.store.db.totpCredentials.filter (claimable credential.id timeStep) =
          before.store.db.totpCredentials.filter (·.id = credential.id) := by
        refine List.filter_congr ?_
        intro row rowMember
        by_cases sameId : row.id = credential.id
        · rw [tracks.keyed.eq_of_key rowMember member sameId]
          simpa using hit
        · simp [claimable, sameId]
      rw [List.countP_eq_length_filter, same, tracks.keyed.filter_key member]
      rfl
    rw [if_pos one] at accepted
    have above : ∀ used ∈ credential.lastUsedTimeStep, used < timeStep := by
      intro used marked
      simp only [claimable, decide_true, Bool.true_and, Option.all_eq_true, decide_eq_true_eq]
        at hit
      exact hit used marked
    refine advances_of_accept member above ?_ ?_ ?_ supply credentials accepted marks tracks
    · intro row
      dsimp only
      split <;> rfl
    · simp [hit]
    · intro row _ other
      simp [claimable, other]
  · have none : ∀ row ∈ before.store.db.totpCredentials,
        claimable credential.id timeStep row = false := by
      intro row rowMember
      by_contra claimed
      have claims : claimable credential.id timeStep row = true := by simpa using claimed
      exact hit (only row rowMember claims ▸ claims)
    have zero : before.store.db.totpCredentials.countP (claimable credential.id timeStep) = 0 := by
      rw [List.countP_eq_zero]
      intro row rowMember
      simp [none row rowMember]
    rw [zero, if_neg (by decide), List.append_nil] at accepted
    rw [Table.updateWhere_eq_self none] at credentials
    exact SameCredentials.advances ⟨credentials, Nat.le_of_eq supply.symm, accepted⟩ marks tracks

theorem verifyAsync_advances (userId : Guid) (code : String) (call : ℕ) (start : State) :
    (verifyAsync services userId code).wp .forward call
      (fun outcome after => Advances start after ∧
        (outcome = .ok (some .totp) → Accepts userId start after)) start := by
  have calm : Calm .forward call SameCredentials := inferInstance
  simp only [verifyAsync, Program.wp_bind]
  refine Action.calm_queryOrThrow calm ?_
  intro seen see
  cases found :
    Action.singleOrDefault (seen.store.db.totpCredentials.filter (enabledFor userId)) with
  | error exception => exact ⟨see.advances, by rintro ⟨⟩⟩
  | ok queried =>
  cases queried with
  | none => exact ⟨see.advances, by rintro ⟨⟩⟩
  | some credential =>
  obtain ⟨member, enabled⟩ := Action.mem_of_singleOrDefault found
  simp only [Program.andThen_ok, Program.wp_bind]
  refine wp_matchTotp calm ?_ fun exception => ⟨see.advances, by rintro ⟨⟩⟩
  intro read answered reading _
  have reached := see.trans reading
  cases answered with
  | some timeStep =>
      simp only [Program.andThen_ok, Program.wp_bind]
      refine Action.calm_utcNow calm ?_
      intro stamped stamp
      have whole := reached.trans stamp
      simp only [Program.andThen_ok, Program.wp_bind]
      rintro _ rfl input -
      have present : credential ∈ stamped.store.db.totpCredentials := by
        rw [whole.credentials, ← see.credentials]
        exact member
      refine ⟨trivial, whole.advances.trans (advances_of_claim present rfl rfl ?_), ?_⟩
      · simp only [Shared.acceptedSteps_advance]
        split <;> rfl
      · simp only [Except.ok.injEq]
        split
        case isFalse => rintro ⟨⟩
        case isTrue =>
          refine fun _ => .earlier whole ⟨credential, present, ?_, timeStep, ?_⟩
          · simp only [enabledFor, Bool.and_eq_true, decide_eq_true_eq] at enabled
            exact enabled.1
          · rw [Shared.acceptedSteps_advance]
            rfl
  | none =>
      simp only [Program.andThen_ok, Program.wp_bind]
      refine Action.calm_query calm ?_
      intro listed list
      have whole := reached.trans list
      simp only [Program.andThen_ok]
      split
      case h_1 => exact ⟨whole.advances, by rintro ⟨⟩⟩
      case h_2 recoveryCode _ =>
        rw [Program.wp_bind]
        refine Action.calm_utcNow calm ?_
        intro stamped stamp
        rw [Program.andThen_ok, Program.wp_bind]
        refine alone_saveChanges ?_ ?_
        · intro input db saved _
          obtain ⟨recoveryCodes, rfl⟩ := Db.updateRecoveryCode_ok saved
          have same : SameCredentials stamped (stamped.advance call input
              ({ stamped.store with db := { stamped.store.db with recoveryCodes } },
                [.recoveryCodeUsed recoveryCode])) :=
            ⟨rfl, Nat.le_refl _, by simp [Event.acceptedStep?]⟩
          exact ⟨((whole.trans stamp).trans same).advances, by rintro ⟨⟩⟩
        · intro input exception _ _
          exact ⟨(whole.trans stamp).advances.trans (advances_observed _ _), by rintro ⟨⟩⟩

theorem disableAsync_advances (http : HttpContext) (userId : Guid) :
    Keeps .forward Advances (disableAsync http userId) := by
  refine .bind (.execute ?_) fun deleted => .guard ?_
  · rintro call start _ input rfl -
    exact ⟨trivial, advances_of_delete rfl rfl (by simp)⟩
  refine .bind (.execute_elsewhere fun _ => rfl) fun _ => ?_
  refine .bind (.bind .utcNow fun _ => .execute_elsewhere fun _ => rfl) fun revoked => ?_
  exact .ite (.bind (.logAsync _ _ _) fun _ => .notifyAsync _ _ _) (.notifyAsync _ _ _)

theorem regenerateRecoveryCodesAsync_advances (userId : Guid) :
    Keeps .forward Advances (regenerateRecoveryCodesAsync services userId) := by
  have replaces : Keeps .forward Advances
      (replaceRecoveryCodesAsync services userId (fun _ db => .ok db) fun _ => []) := by
    intro call start
    have correct : Replacement .forward call Advances start (fun _ db => .ok db) (fun _ => [])
        (fun _ after => Advances start after) := by
      constructor
      case deleted =>
        intro current input recoveryCodes _ _
        exact ⟨trivial, SameCredentials.advances ⟨rfl, Nat.le_refl _, rfl⟩⟩
      case saved =>
        intro current input middle recoveryCodes reached sent _
        cases sent
        exact ⟨trivial, fun _ => reached.trans
          (SameCredentials.advances ⟨rfl, Nat.le_refl _, by simp⟩)⟩
      case refused =>
        intro current exception reached
        exact reached
    exact wp_replaceRecoveryCodesAsync correct
  refine .bind (.query _) fun enabled => .guard ?_
  exact .bind replaces fun _ => .bind (.notifyAsync _ _ _) fun _ => .pure _

end TotpService

/-! ### Runs -/

/-- The user whose authenticator an operation is about. -/
def TotpOperation.userId : TotpOperation → Guid
  | enroll userId => userId
  | confirm userId _ => userId
  | verify userId _ => userId
  | disable _ userId => userId
  | regenerate userId => userId

/-- The operation has accepted a code of the authenticator. -/
def TotpOperation.Succeeds : TotpOperation → Except AppException TotpResponse → Prop
  | confirm _ _, .ok _ => True
  | verify _ _, .ok response => response = .verified (some .totp)
  | _, _ => False

abbrev TotpRecord := Record TotpOperation Input World Event AppException TotpResponse

theorem TotpOperation.advances (services : Services) (op : TotpOperation) (call : ℕ)
    (start : State) :
    (op.program services).wp .forward call
      (fun outcome after => Advances start after ∧
        (op.Succeeds outcome → Accepts op.userId start after)) start := by
  have silent : ∀ {program : Action TotpResponse}, Keeps .forward Advances program →
      (∀ outcome, ¬ op.Succeeds outcome) → program.wp .forward call
        (fun outcome after => Advances start after ∧
          (op.Succeeds outcome → Accepts op.userId start after)) start := by
    intro program keeps never
    refine Program.wp_mono (keeps call start) ?_
    intro outcome after advances
    exact ⟨advances, fun succeeds => absurd succeeds (never outcome)⟩
  cases op with
  | enroll userId =>
      exact silent (.bind (TotpService.enrollAsync_advances services userId) fun _ => .pure _)
        fun _ => id
  | confirm userId code =>
      refine Program.wp_bind_of (TotpService.confirmAsync_advances services userId code call start)
        ?_ ?_
      · intro response after ⟨advances, accepts⟩
        exact ⟨advances, fun _ => accepts ⟨response, rfl⟩⟩
      · intro exception after ⟨advances, _⟩
        exact ⟨advances, False.elim⟩
  | verify userId code =>
      refine Program.wp_bind_of (TotpService.verifyAsync_advances services userId code call start)
        ?_ ?_
      · intro method after ⟨advances, accepts⟩
        refine ⟨advances, fun succeeds => accepts ?_⟩
        exact congrArg Except.ok (TotpResponse.verified.inj succeeds)
      · intro exception after ⟨advances, _⟩
        exact ⟨advances, False.elim⟩
  | disable http userId =>
      exact silent (.bind (TotpService.disableAsync_advances http userId) fun _ => .pure _)
        fun _ => id
  | regenerate userId =>
      exact silent (.bind (TotpService.regenerateRecoveryCodesAsync_advances services userId)
        fun _ => .pure _) fun _ => id

/-- The state that a run begins in: credentials with different ids that were given out, and nothing
accepted yet. -/
structure TotpStart (start : State) : Prop where
  keyed : Table.Keyed TotpCredential.id start.store.db.totpCredentials
  given : ∀ row ∈ start.store.db.totpCredentials, row.id < start.store.supply
  silent : start.acceptedSteps = []

/-- The marks of the stored credentials. -/
def marksOf (start : State) : Marks Guid ℤ where
  highest id := (start.store.db.totpCredentials.find? (·.id = id)).bind (·.lastUsedTimeStep)
  accepted := []

theorem TotpStart.tracks {start : State} (begins : TotpStart start) :
    Tracks (marksOf start) start where
  keyed := begins.keyed
  given := begins.given
  live row member := by
    simp only [marksOf, begins.keyed.find?_key member, Option.bind_some]
  fresh id reached := by
    have missing : start.store.db.totpCredentials.find? (·.id = id) = none := by
      rw [List.find?_eq_none]
      intro row member
      have below := Nat.lt_of_lt_of_le (begins.given row member) reached
      simpa using Nat.ne_of_lt below
    simp only [marksOf, missing, Option.bind_none]
  accepted := begins.silent.symm

theorem marksOf_sound (start : State) : (marksOf start).Sound where
  bounded _ _ member := nomatch member
  once := List.nodup_nil

/-- No time step is accepted twice, and no stored mark falls. -/
structure AcceptedOnce (history : List TotpRecord) (final : State) : Prop where
  once : final.acceptedSteps.Nodup
  reported : ∀ record ∈ history, record.op.Succeeds record.outcome →
    Accepts record.op.userId record.before record.after
  distinct : ∀ (left right : ℕ) (earlier later : TotpRecord) (pair : Guid × ℤ), left < right →
    history[left]? = some earlier → history[right]? = some later →
    earlier.after.acceptedSteps = earlier.before.acceptedSteps ++ [pair] →
    later.after.acceptedSteps ≠ later.before.acceptedSteps ++ [pair]
  raised : ∀ record ∈ history, ∀ row, row ∈ record.before.store.db.totpCredentials ∨
      row ∈ record.after.store.db.totpCredentials →
    ∀ later ∈ final.store.db.totpCredentials, later.id = row.id →
      ∀ used ∈ row.lastUsedTimeStep, ∃ mark ∈ later.lastUsedTimeStep, used ≤ mark

section Runs

variable {services : Services} {start final : State} {history : List TotpRecord}

theorem advances_of_runs
    (runs : RunsTo ConfirmsForward (TotpOperation.program services) start history final) :
    Advances start final := by
  induction runs with
  | start => exact (SameCredentials.refl _).advances
  | snoc earlier op completes inductionHypothesis =>
      exact inductionHypothesis.trans
        (completes.post_of_wp (TotpOperation.advances services op _ _)).1

theorem raised_of_advances {before after : State} {marks : Marks Guid ℤ}
    (tracks : Tracks marks before) (advances : Advances before after) {row later : TotpCredential}
    (member : row ∈ before.store.db.totpCredentials)
    (laterMember : later ∈ after.store.db.totpCredentials) (same : later.id = row.id) :
    ∀ used ∈ row.lastUsedTimeStep, ∃ mark ∈ later.lastUsedTimeStep, used ≤ mark := by
  intro used marked
  obtain ⟨current, run, tracked⟩ := advances marks tracks
  rw [← tracks.live row member] at marked
  obtain ⟨mark, highest, reached⟩ := run.raised row.id used marked
  rw [← same, tracked.live later laterMember] at highest
  exact ⟨mark, highest, reached⟩

/-- The replay guard holds in every run that confirms forward. -/
theorem acceptedOnce_of_forward (begins : TotpStart start)
    (runs : RunsTo ConfirmsForward (TotpOperation.program services) start history final) :
    AcceptedOnce history final := by
  have reached : ∀ {position : ℕ} {record : TotpRecord}, history[position]? = some record →
      ∃ marks, Marks.Sound marks ∧ Tracks marks record.before := by
    intro position record found
    obtain ⟨marks, run, tracks⟩ := advances_of_runs (runs.record found).1 _ begins.tracks
    exact ⟨marks, run.sound (marksOf_sound start), tracks⟩
  have steps : ∀ op call before outcome after,
      (TotpOperation.program services op).Completes ConfirmsForward call before outcome after →
      Advances before after := by
    intro op call before outcome after completes
    exact (completes.post_of_wp (TotpOperation.advances services op _ _)).1
  have reflexive : ∀ state, Advances state state :=
    fun state => (SameCredentials.refl state).advances
  have transitive : ∀ first second third, Advances first second → Advances second third →
      Advances first third := fun _ _ _ => .trans
  have onceOf : ∀ {state : State} {marks : Marks Guid ℤ}, Marks.Sound marks → Tracks marks state →
      state.acceptedSteps.Nodup := by
    intro state marks sound tracks
    rw [← tracks.accepted]
    exact sound.once
  constructor
  case once =>
    obtain ⟨marks, run, tracks⟩ := advances_of_runs runs _ begins.tracks
    exact onceOf (run.sound (marksOf_sound start)) tracks
  case reported =>
    intro record member succeeds
    obtain ⟨position, found⟩ := List.mem_iff_getElem?.mp member
    exact ((runs.record found).2.post_of_wp (TotpOperation.advances services _ _ _)).2 succeeds
  case distinct =>
    intro left right earlier later pair order leftFound rightFound accepted again
    have grows : earlier.after.acceptedSteps <+: later.before.acceptedSteps := by
      have related : earlier.after.journal <+: later.before.journal :=
        runs.continues_between order leftFound rightFound
      exact related.filterMap _
    obtain ⟨marks, sound, tracks⟩ := reached rightFound
    obtain ⟨final, run, tracked⟩ := steps _ _ _ _ _ (runs.record rightFound).2 marks tracks
    have once := onceOf (run.sound sound) tracked
    rw [again, List.nodup_append] at once
    have seen : pair ∈ later.before.acceptedSteps := grows.subset (by simp [accepted])
    exact once.2.2 pair seen pair (List.mem_singleton_self _) rfl
  case raised =>
    intro record member row present later laterMember same
    obtain ⟨position, found⟩ := List.mem_iff_getElem?.mp member
    obtain ⟨marks, sound, tracks⟩ := reached found
    have during := steps _ _ _ _ _ (runs.record found).2
    have since : Advances record.after final := runs.since reflexive transitive steps found
    rcases present with inBefore | inAfter
    · exact raised_of_advances tracks (during.trans since) inBefore laterMember same
    · obtain ⟨current, -, tracked⟩ := during marks tracks
      exact raised_of_advances tracked since inAfter laterMember same

end Runs

/-- A user without an authenticator. -/
def unenrolledWorld : World where
  db :=
    { users :=
      [{ id := 1, email := "ada@example.test", emailVerified := true, securityStamp := 7 }] }
  supply := 2

/-- Enroll, confirm a code of step 2, and verify one of step 3. -/
def forwardRun : Option (List TotpRecord × State) :=
  RunsTo.executeAll ConfirmsForward (TotpOperation.program .sample)
    [(.enroll 1, ⟨60, false⟩), (.confirm 1 "kk", ⟨60, false⟩), (.verify 1 "kk", ⟨90, false⟩)] []
    (Shared.initial unenrolledWorld ⟨60, false⟩)

set_option maxRecDepth 20000 in
theorem forwardRun_any : forwardRun.any (fun run =>
    run.2.acceptedSteps = [(4, 2), (4, 3)]) = true := by
  decide

theorem totpStart_unenrolled (last : Input) : TotpStart (Shared.initial unenrolledWorld last) :=
  ⟨List.nodup_nil, nofun, rfl⟩

theorem acceptedOnce_of_forward_sample :
    ∃ history final, forwardRun = some (history, final) ∧ final.acceptedSteps = [(4, 2), (4, 3)] ∧
      AcceptedOnce history final := by
  obtain ⟨⟨history, final⟩, ran, accepted⟩ := (Option.any_eq_true _ _).mp forwardRun_any
  simp only [decide_eq_true_eq] at accepted
  exact ⟨history, final, ran, accepted,
    acceptedOnce_of_forward (totpStart_unenrolled _) (.of_executeAll .start ran)⟩

/-- Confirm a code of step 2, and twice one of step 1. -/
def backwardRun : Option (List TotpRecord × State) :=
  RunsTo.executeAll (fun _ _ _ _ => True) (TotpOperation.program .sample)
    [(.enroll 1, ⟨60, false⟩), (.confirm 1 "kk", ⟨60, false⟩), (.confirm 1 "kk", ⟨30, false⟩),
      (.confirm 1 "kk", ⟨31, false⟩)] []
    (Shared.initial unenrolledWorld ⟨60, false⟩)

set_option maxRecDepth 40000 in
theorem backwardRun_any : backwardRun.any (fun run =>
    (run.1.all fun record => record.outcome.toOption.isSome) ∧
    run.2.acceptedSteps = [(4, 2), (4, 1), (4, 1)] ∧
      run.1[1]?.any (fun record => record.after.store.db.totpCredentials.map (·.lastUsedTimeStep) =
        [some 2]) ∧
      run.2.store.db.totpCredentials.map (·.lastUsedTimeStep) = [some 1]) = true := by
  decide

/-- Confirming again accepts the same step twice, and lowers the mark. -/
theorem accepted_twice_when_confirmed_again :
    ∃ history final, RunsTo (fun _ _ _ _ => True) (TotpOperation.program .sample)
      (Shared.initial unenrolledWorld ⟨60, false⟩) history final ∧
      TotpStart (Shared.initial unenrolledWorld ⟨60, false⟩) ∧ ¬ AcceptedOnce history final ∧
      ¬ final.acceptedSteps.Nodup := by
  obtain ⟨⟨history, final⟩, ran, accepted⟩ := (Option.any_eq_true _ _).mp backwardRun_any
  simp only [decide_eq_true_eq] at accepted
  have twice : ¬ final.acceptedSteps.Nodup := by
    rw [accepted.2.1]
    decide
  exact ⟨history, final, .of_executeAll .start ran, totpStart_unenrolled _,
    fun once => twice once.once, twice⟩

end AuthStartpack
