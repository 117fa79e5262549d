import AuthStartpack.Mfa.HighWaterMarks
import AuthStartpack.Mfa.TotpOperations
import AuthStartpack.Program.Pool
import Mathlib.Order.Basic

/-!
Owns the single use of recovery codes under concurrency. `VerifyAsync` reads the
unused codes, compares hashes and saves the mark in a later step, without a
check that the code is still unused. So the codes are high-water marks with one
number, accepted at most once, in the interleavings in which no other save has
marked the code since the call read it.
-/

namespace AuthStartpack

/-- The recovery code that a save marked as used. -/
def Event.usedCode? : Event → Option Guid
  | .recoveryCodeUsed code => some code.id
  | _ => none

/-- All uses of recovery codes, in their order. -/
def Shared.usedCodes (state : State) : List Guid :=
  state.journal.filterMap fun entry => entry.event.usedCode?

@[simp]
theorem Shared.usedCodes_advance (state : State) (call : ℕ) (input : Input)
    (outcome : World × List Event) :
    (state.advance call input outcome).usedCodes =
      state.usedCodes ++ outcome.2.filterMap Event.usedCode? := by
  simp [Shared.usedCodes, List.filterMap_append, List.filterMap_map]

/-- The uses that a call has reported. -/
def Shared.usedCodesOf (state : State) (call : ℕ) : List Guid :=
  (state.eventsOf call).filterMap Event.usedCode?

theorem Shared.mem_usedCodesOf {state : State} {call : ℕ} {codeId : Guid} :
    codeId ∈ state.usedCodesOf call ↔
      ∃ entry ∈ state.journal, entry.call = call ∧ entry.event.usedCode? = some codeId := by
  simp only [usedCodesOf, List.mem_filterMap, mem_eventsOf]
  constructor
  · rintro ⟨event, ⟨entry, member, own, rfl⟩, uses⟩
    exact ⟨entry, member, own, uses⟩
  · rintro ⟨entry, member, own, uses⟩
    exact ⟨entry.event, ⟨entry, member, own, rfl⟩, uses⟩

/-- Between the SELECT of a call and its save no other save changes `UsedAt` of the code. -/
def UsesAsRead (state : State) (_ : ℕ) (_ : Input) (events : List Event) : Prop :=
  ∀ event ∈ events, match event with
    | .recoveryCodeUsed code =>
        ∀ row ∈ state.store.db.recoveryCodes, row.id = code.id → row.usedAt = code.usedAt
    | _ => True

instance (state : State) (call : ℕ) (input : Input) (events : List Event) :
    Decidable (UsesAsRead state call input events) := by
  refine @List.decidableBAll _ _ (fun event => ?_) events
  split <;> infer_instance

/-- A code has a mark once it is used. -/
structure TracksCodes (marks : Marks Guid Unit) (state : State) : Prop where
  keyed : Table.Keyed RecoveryCode.id state.store.db.recoveryCodes
  live : ∀ row ∈ state.store.db.recoveryCodes,
    marks.highest row.id = row.usedAt.map fun _ => ()
  accepted : marks.accepted = state.usedCodes.map (·, ())

/-- The columns of a code that no use changes. -/
def RecoveryCode.identity (row : RecoveryCode) : Guid × Guid × String :=
  (row.id, row.userId, row.codeHash)

/-- The columns of a credential that no verification changes. -/
def TotpCredential.ownedSecret (row : TotpCredential) : Guid × String :=
  (row.userId, row.secretEncrypted)

/-- What every step of a verification keeps. -/
structure UsesCodes (before after : State) : Prop where
  follows : Marks.Follows TracksCodes before after
  codes : after.store.db.recoveryCodes.map RecoveryCode.identity =
    before.store.db.recoveryCodes.map RecoveryCode.identity
  secrets : after.store.db.totpCredentials.map TotpCredential.ownedSecret =
    before.store.db.totpCredentials.map TotpCredential.ownedSecret

namespace UsesCodes

theorem refl (state : State) : UsesCodes state state := ⟨.refl state, rfl, rfl⟩

theorem trans (first second third : State) (early : UsesCodes first second)
    (late : UsesCodes second third) : UsesCodes first third :=
  ⟨early.follows.trans late.follows, late.codes.trans early.codes,
    late.secrets.trans early.secrets⟩

/-- A step that uses no code. -/
theorem of_same {before after : State}
    (codes : after.store.db.recoveryCodes = before.store.db.recoveryCodes)
    (secrets : after.store.db.totpCredentials.map TotpCredential.ownedSecret =
      before.store.db.totpCredentials.map TotpCredential.ownedSecret)
    (used : after.usedCodes = before.usedCodes) : UsesCodes before after := by
  refine ⟨.of_same ?_, by rw [codes], secrets⟩
  intro marks tracks
  constructor
  · rw [codes]
    exact tracks.keyed
  · rw [codes]
    exact tracks.live
  · rw [used]
    exact tracks.accepted

/-- The save that marks an unused code as used. -/
theorem of_use {before after : State} {original : RecoveryCode} {usedAt savedAt : Instant}
    (unread : original.usedAt = none)
    (stored : ∃ row ∈ before.store.db.recoveryCodes, row.id = original.id)
    (unused : ∀ row ∈ before.store.db.recoveryCodes, row.id = original.id → row.usedAt = none)
    (codes : after.store.db.recoveryCodes =
      Table.updateWhere
        (fun row => row.id = original.id && { original with usedAt := some usedAt } ≠ original)
        (original.merge { original with usedAt := some usedAt } savedAt)
        before.store.db.recoveryCodes)
    (credentials : after.store.db.totpCredentials = before.store.db.totpCredentials)
    (used : after.usedCodes = before.usedCodes ++ [original.id]) : UsesCodes before after := by
  have changes : ({ original with usedAt := some usedAt } : RecoveryCode) ≠ original := by
    intro same
    rw [← same] at unread
    cases unread
  refine ⟨?_, ?_, by rw [credentials]⟩
  · intro marks tracks
    obtain ⟨row, member, same⟩ := stored
    have above : marks.Above original.id () := by
      intro mark marked
      rw [← same, tracks.live row member, unused row member same] at marked
      cases marked
    refine ⟨marks.accept original.id (), .single (.accept _ _ above), ?_⟩
    constructor
    · rw [codes]
      exact tracks.keyed.updateWhere fun _ => rfl
    · rw [codes]
      intro later laterMember
      rcases Table.mem_updateWhere_cases laterMember with ⟨old, miss⟩ | ⟨old, oldMember, hit, rfl⟩
      · have other : later.id ≠ original.id := by simpa [changes] using miss
        simpa [Marks.accept, Function.update_of_ne other] using tracks.live later old
      · have hits : old.id = original.id := by simpa [changes] using hit
        simp [Marks.accept, RecoveryCode.merge, hits, unread, changed]
    · simp [Marks.accept, tracks.accepted, used]
  · rw [codes]
    refine Table.map_updateWhere ?_
    intro row
    simp [RecoveryCode.identity, RecoveryCode.merge]

end UsesCodes

/-! ### Calls -/

/-- What a call of `VerifyAsync` has done when it ends. -/
def Answered (services : Services) (start : State) (userId : Guid) (code : String) (call : ℕ) :
    Except AppException (Option AuthenticationMethod) → State → Prop
  | .ok (some .recoveryCode), state =>
      ∃ row ∈ start.store.db.recoveryCodes, row.userId = userId ∧ row.usedAt = none ∧
        services.passwordHasher.verify code row.codeHash = true ∧
        state.usedCodesOf call = [row.id]
  | .ok (some .totp), _ =>
      ∃ credential ∈ start.store.db.totpCredentials, credential.userId = userId ∧
        ∃ timeStep, TotpService.HasCode services credential code timeStep
  | .ok (some _), _ => False
  | .ok none, _ => True
  | .error _, _ => True

theorem calm_usesCodes (call : ℕ) :
    Calm (.concurrent UsesAsRead UsesCodes) call fun before after =>
      UsesCodes before after ∧ after.eventsOf call = before.eventsOf call := by
  refine Calm.reporting call UsesCodes.refl UsesCodes.trans ?_
  intro state input world _ step
  obtain ⟨auditLogEntries, equal⟩ := step.db
  refine UsesCodes.of_same ?_ ?_ ?_
  · rw [Shared.advance_store, equal]
  · rw [Shared.advance_store, equal]
  · simp

section Reads

variable {before after : State}

/-- A code that is read unused was unused all along. -/
theorem UsesCodes.unused_before {marks : Marks Guid Unit} (tracks : TracksCodes marks before)
    (kept : UsesCodes before after) {old row : RecoveryCode}
    (oldMember : old ∈ before.store.db.recoveryCodes) (member : row ∈ after.store.db.recoveryCodes)
    (same : old.id = row.id) (unused : row.usedAt = none) : old.usedAt = none := by
  obtain ⟨later, run, tracked⟩ := kept.follows marks tracks
  cases used : old.usedAt with
  | none => rfl
  | some usedAt =>
      have marked : () ∈ marks.highest old.id := by
        rw [tracks.live old oldMember, used]
        rfl
      obtain ⟨mark, laterMarked, -⟩ := Marks.Run.raised run old.id () marked
      rw [same, tracked.live row member, unused] at laterMarked
      cases laterMarked

/-- A stored code has been there, with its owner and hash. -/
theorem UsesCodes.origin (kept : UsesCodes before after) {row : RecoveryCode}
    (member : row ∈ after.store.db.recoveryCodes) :
    ∃ old ∈ before.store.db.recoveryCodes, old.identity = row.identity := by
  have present := List.mem_map_of_mem (f := RecoveryCode.identity) member
  rw [kept.codes] at present
  exact List.mem_map.mp present

/-- A stored secret has been there, with its owner. -/
theorem UsesCodes.secret_origin (kept : UsesCodes before after) {credential : TotpCredential}
    (member : credential ∈ after.store.db.totpCredentials) :
    ∃ old ∈ before.store.db.totpCredentials, old.ownedSecret = credential.ownedSecret := by
  have present := List.mem_map_of_mem (f := TotpCredential.ownedSecret) member
  rw [kept.secrets] at present
  exact List.mem_map.mp present

/-- A code that is stored stays, with its owner and hash. -/
theorem UsesCodes.remains (kept : UsesCodes before after) {row : RecoveryCode}
    (member : row ∈ before.store.db.recoveryCodes) :
    ∃ later ∈ after.store.db.recoveryCodes, later.identity = row.identity := by
  have present := List.mem_map_of_mem (f := RecoveryCode.identity) member
  rw [← kept.codes] at present
  exact List.mem_map.mp present

end Reads

theorem TotpService.verifyAsync_usesCodes {services : Services} {userId : Guid} {code : String}
    {call : ℕ} {start : State} {marks : Marks Guid Unit} (tracks : TracksCodes marks start)
    (silent : start.eventsOf call = []) :
    (verifyAsync services userId code).wp (.concurrent UsesAsRead UsesCodes) call
      (Answered services start userId code call) start := by
  have calm := calm_usesCodes call
  simp only [verifyAsync, Program.wp_bind]
  refine Action.calm_queryOrThrow calm ?_
  intro seen see
  cases found :
    Action.singleOrDefault (seen.store.db.totpCredentials.filter (enabledFor userId)) with
  | error exception => trivial
  | ok queried =>
  cases queried with
  | none => trivial
  | some credential =>
  obtain ⟨member, enabled⟩ := Action.mem_of_singleOrDefault found
  simp only [Program.andThen_ok, Program.wp_bind]
  refine wp_matchTotp calm ?_ fun exception => trivial
  intro read answered reading matched
  have reached := calm.trans _ _ _ see reading
  cases answered with
  | some timeStep =>
      simp only [Program.andThen_ok, Program.wp_bind]
      refine Action.calm_utcNow calm ?_
      intro stamped stamp
      simp only [Program.andThen_ok, Program.wp_bind]
      refine Action.wp_execute calm ?_
      intro current input claim admitted
      refine ⟨UsesCodes.of_same rfl ?_ ?_, ?_⟩
      · exact Table.map_updateWhere fun _ => rfl
      · rw [Shared.usedCodes_advance]
        split <;> simp [Event.usedCode?]
      · simp only [Program.andThen_ok, Program.wp_pure]
        split
        case isFalse => trivial
        case isTrue =>
          obtain ⟨old, oldMember, same⟩ := see.1.secret_origin member
          obtain ⟨owner, secret⟩ := Prod.mk.inj same
          refine ⟨old, oldMember, ?_, timeStep, ?_⟩
          · simp only [enabledFor, Bool.and_eq_true, decide_eq_true_eq] at enabled
            exact owner.trans enabled.1
          · unfold HasCode
            rw [secret]
            exact matched timeStep rfl
  | none =>
      simp only [Program.andThen_ok, Program.wp_bind]
      refine Action.calm_query calm ?_
      intro listed list
      have whole := calm.trans _ _ _ reached list
      simp only [Program.andThen_ok]
      split
      case h_1 => trivial
      case h_2 recoveryCode chosen =>
        have listedMember := List.mem_of_find?_eq_some chosen
        have verified := List.find?_some chosen
        simp only [List.mem_filter, Bool.and_eq_true, decide_eq_true_eq, Option.isNone_iff_eq_none]
          at listedMember
        obtain ⟨codeMember, owns, unread⟩ := listedMember
        obtain ⟨old, oldMember, same⟩ := whole.1.origin codeMember
        obtain ⟨sameId, sameUser, sameHash⟩ :
            old.id = recoveryCode.id ∧ old.userId = recoveryCode.userId ∧
              old.codeHash = recoveryCode.codeHash := by
          simpa [RecoveryCode.identity] using same
        have unused := whole.1.unused_before tracks oldMember codeMember sameId unread
        rw [Program.wp_bind]
        refine Action.calm_utcNow calm ?_
        intro stamped stamp
        rw [Program.andThen_ok, Program.wp_bind]
        refine Action.wp_saveChanges calm ?_ fun _ _ _ _ _ _ _ => trivial
        intro current input db reach saved admitted
        obtain ⟨-, rfl⟩ := Db.updateRecoveryCode_eq_ok.mp saved
        have between := calm.trans _ _ _ stamp reach
        obtain ⟨stored, storedMember, storedSame⟩ := between.1.remains codeMember
        have storedId : stored.id = recoveryCode.id := (Prod.mk.inj storedSame).1
        refine ⟨UsesCodes.of_use unread ⟨stored, storedMember, storedId⟩ ?_ rfl rfl ?_, ?_⟩
        · -- the filter of the SELECT was on the row as read, which is the row of now
          intro row rowMember rowId
          have unchanged := admitted (.recoveryCodeUsed recoveryCode) List.mem_cons_self
          exact (unchanged row rowMember rowId).trans unread
        · simp [Event.usedCode?]
        · refine ⟨old, oldMember, sameUser.trans owns, unused, ?_, ?_⟩
          · rw [sameHash]
            exact verified
          · rw [Shared.usedCodesOf, Shared.eventsOf_advance, between.2, whole.2, silent, sameId]
            rfl

/-! ### Concurrent verifications -/

abbrev VerifyPool := Pool Input World Event AppException (Option AuthenticationMethod)

/-- Verifications of these users' codes that have not begun. -/
def verifying (services : Services) (requests : List (Guid × String)) (start : State) :
    VerifyPool where
  shared := start
  calls := requests.map fun request => TotpService.verifyAsync services request.1 request.2

/-- The call has accepted its code. -/
def Authenticated (pool : VerifyPool) (call : ℕ) : Prop :=
  ∃ method, pool.outcome? call = some (.ok (some method))

/-- The text is a recovery code of this user: of one row, and no one-time password. -/
structure RecoveryCodeOf (services : Services) (db : Db) (userId : Guid) (code : String) :
    Prop where
  only : ∀ left ∈ db.recoveryCodes, ∀ right ∈ db.recoveryCodes,
    left.userId = userId → right.userId = userId →
    services.passwordHasher.verify code left.codeHash = true →
    services.passwordHasher.verify code right.codeHash = true → left = right
  foreign : ∀ credential ∈ db.totpCredentials, credential.userId = userId →
    ∀ timeStep, ¬ TotpService.HasCode services credential code timeStep

/-- Each success by a recovery code used one row of the user, which was unused, no row is used by
two calls, and a recovery code is accepted by one call. -/
structure CodesUsedOnce (services : Services) (requests : List (Guid × String)) (start : State)
    (final : VerifyPool) : Prop where
  used : ∀ call userId code, requests[call]? = some (userId, code) →
    final.outcome? call = some (.ok (some .recoveryCode)) →
    ∃ row ∈ start.store.db.recoveryCodes, row.userId = userId ∧ row.usedAt = none ∧
      services.passwordHasher.verify code row.codeHash = true ∧
      final.shared.usedCodesOf call = [row.id] ∧
      ∀ later ∈ final.shared.store.db.recoveryCodes, later.id = row.id → later.usedAt ≠ none
  distinct : ∀ left right codeId, codeId ∈ final.shared.usedCodesOf left →
    codeId ∈ final.shared.usedCodesOf right → left = right
  once : ∀ left right userId code, RecoveryCodeOf services start.store.db userId code →
    requests[left]? = some (userId, code) → requests[right]? = some (userId, code) →
    Authenticated final left → Authenticated final right → left = right

/-- The marks of the stored codes. -/
def usedMarks (start : State) : Marks Guid Unit where
  highest id := (start.store.db.recoveryCodes.find? (·.id = id)).bind fun row =>
    row.usedAt.map fun _ => ()
  accepted := []

theorem usedMarks_sound (start : State) : (usedMarks start).Sound where
  bounded _ _ member := nomatch member
  once := List.nodup_nil

theorem tracks_usedMarks {start : State}
    (keyed : Table.Keyed RecoveryCode.id start.store.db.recoveryCodes)
    (silent : start.journal = []) : TracksCodes (usedMarks start) start where
  keyed := keyed
  live row member := by simp only [usedMarks, keyed.find?_key member, Option.bind_some]
  accepted := by simp [usedMarks, Shared.usedCodes, silent]

theorem Answered.later {services : Services} {start earlier final : State} {userId : Guid}
    {code : String} {call : ℕ} {outcome : Except AppException (Option AuthenticationMethod)}
    (answered : Answered services start userId code call outcome earlier)
    (same : final.eventsOf call = earlier.eventsOf call) :
    Answered services start userId code call outcome final := by
  cases outcome with
  | error exception => trivial
  | ok method =>
      cases method with
      | none => trivial
      | some method =>
          cases method with
          | recoveryCode => simpa only [Answered, Shared.usedCodesOf, same] using answered
          | _ => exact answered

/-- A recovery code is accepted by one of its rows. -/
theorem Answered.uses {services : Services} {start final : State} {userId : Guid} {code : String}
    {call : ℕ} {method : AuthenticationMethod}
    (answered : Answered services start userId code call (.ok (some method)) final)
    (recovery : RecoveryCodeOf services start.store.db userId code) :
    ∃ row ∈ start.store.db.recoveryCodes, row.userId = userId ∧
      services.passwordHasher.verify code row.codeHash = true ∧
      row.id ∈ final.usedCodesOf call := by
  cases method with
  | recoveryCode =>
      obtain ⟨row, member, owns, -, verifies, own⟩ := answered
      exact ⟨row, member, owns, verifies, by simp [own]⟩
  | totp =>
      obtain ⟨credential, member, owns, timeStep, has⟩ := answered
      exact absurd has (recovery.foreign credential member owns timeStep)
  | _ => exact False.elim answered

namespace TracksCodes

variable {marks : Marks Guid Unit} {state : State}

/-- No two calls use one code. -/
theorem caller_unique {left right : ℕ} {codeId : Guid} (tracked : TracksCodes marks state)
    (sound : marks.Sound) (ofLeft : codeId ∈ state.usedCodesOf left)
    (ofRight : codeId ∈ state.usedCodesOf right) : left = right := by
  obtain ⟨first, firstMember, rfl, firstUses⟩ := Shared.mem_usedCodesOf.mp ofLeft
  obtain ⟨second, secondMember, rfl, secondUses⟩ := Shared.mem_usedCodesOf.mp ofRight
  have once : state.usedCodes.Nodup := by
    have accepted := sound.once
    rw [tracked.accepted] at accepted
    exact accepted.of_map _
  rw [Shared.entry_eq_of_nodup once firstMember secondMember firstUses secondUses]

/-- A code that a call used stays marked. -/
theorem used_of_accepted {call : ℕ} {codeId : Guid} {row : RecoveryCode}
    (tracked : TracksCodes marks state) (sound : marks.Sound)
    (reported : codeId ∈ state.usedCodesOf call) (member : row ∈ state.store.db.recoveryCodes)
    (same : row.id = codeId) : row.usedAt ≠ none := by
  obtain ⟨entry, entryMember, -, uses⟩ := Shared.mem_usedCodesOf.mp reported
  have accepted : (codeId, ()) ∈ marks.accepted := by
    rw [tracked.accepted]
    exact List.mem_map_of_mem (List.mem_filterMap.mpr ⟨entry, entryMember, uses⟩)
  obtain ⟨mark, marked, -⟩ := sound.bounded codeId () accepted
  rw [← same, tracked.live row member] at marked
  intro unused
  rw [unused] at marked
  cases marked

end TracksCodes

section Concurrent

variable {services : Services} {requests : List (Guid × String)} {start : State}
variable {schedule : List (ℕ × Input)}

/-- What the calls have done in such an interleaving, and what the writes of all calls kept. -/
theorem verifying_answered
    (keyed : Table.Keyed RecoveryCode.id start.store.db.recoveryCodes)
    (silent : start.journal = [])
    (admitted : (verifying services requests start).Admitted UsesAsRead schedule) :
    UsesCodes start ((verifying services requests start).run schedule).shared ∧
      ∀ call userId code outcome, requests[call]? = some (userId, code) →
        ((verifying services requests start).run schedule).outcome? call = some outcome →
        Answered services start userId code call outcome
          ((verifying services requests start).run schedule).shared := by
  have tracks := tracks_usedMarks keyed silent
  have noEvents : ∀ call, start.eventsOf call = [] := by
    intro call
    simp [Shared.eventsOf, silent]
  let post (call : ℕ) (outcome : Except AppException (Option AuthenticationMethod))
      (state : State) : Prop :=
    ∀ userId code, requests[call]? = some (userId, code) →
      Answered services start userId code call outcome state
  have verified : (verifying services requests start).Verified UsesAsRead UsesCodes post := by
    refine Pool.verified_of_wp UsesCodes.refl ?_
    intro call program found
    simp only [verifying, List.getElem?_map, Option.map_eq_some_iff] at found
    obtain ⟨request, requested, rfl⟩ := found
    refine Program.wp_mono (TotpService.verifyAsync_usesCodes tracks (noEvents call)) ?_
    intro outcome state answered userId code same
    rw [requested] at same
    cases same
    exact answered
  obtain ⟨kept, ended⟩ := Pool.run_wp UsesCodes.refl UsesCodes.trans verified admitted
  refine ⟨kept, ?_⟩
  intro call userId code outcome requested finished
  obtain ⟨earlier, -, untouched, answered⟩ := ended.outcome finished
  exact (answered userId code requested).later untouched.eventsOf

/-- Recovery codes are accepted once in every interleaving in which no other save marks a code
between the read of a call and its save. -/
theorem codesUsedOnce_of_asRead
    (keyed : Table.Keyed RecoveryCode.id start.store.db.recoveryCodes)
    (silent : start.journal = [])
    (admitted : (verifying services requests start).Admitted UsesAsRead schedule) :
    CodesUsedOnce services requests start ((verifying services requests start).run schedule) := by
  obtain ⟨kept, answers⟩ := verifying_answered keyed silent admitted
  generalize (verifying services requests start).run schedule = final at kept answers
  obtain ⟨marks, run, tracked⟩ := kept.follows _ (tracks_usedMarks keyed silent)
  have sound := Marks.Run.sound run (usedMarks_sound start)
  have distinct : ∀ left right codeId, codeId ∈ final.shared.usedCodesOf left →
      codeId ∈ final.shared.usedCodesOf right → left = right :=
    fun _ _ _ => tracked.caller_unique sound
  constructor
  case used =>
    intro call userId code requested succeeded
    obtain ⟨row, member, owns, unused, verifies, own⟩ :=
      answers call userId code _ requested succeeded
    refine ⟨row, member, owns, unused, verifies, own, ?_⟩
    intro later laterMember same
    have reported : row.id ∈ final.shared.usedCodesOf call := by simp [own]
    exact tracked.used_of_accepted sound reported laterMember same
  case distinct => exact distinct
  case once =>
    rintro left right userId code recovery leftRequest rightRequest ⟨leftMethod, leftEnds⟩
      ⟨rightMethod, rightEnds⟩
    obtain ⟨first, firstMember, firstOwns, firstVerifies, firstUses⟩ :=
      (answers left userId code _ leftRequest leftEnds).uses recovery
    obtain ⟨second, secondMember, secondOwns, secondVerifies, secondUses⟩ :=
      (answers right userId code _ rightRequest rightEnds).uses recovery
    rw [recovery.only first firstMember second secondMember firstOwns secondOwns firstVerifies
      secondVerifies] at firstUses
    exact distinct left right second.id firstUses secondUses

end Concurrent

/-- A user with an authenticator and one recovery code. -/
def recoverableWorld : World where
  db :=
    { users := [{ id := 1, email := "ada@example.test", emailVerified := true, securityStamp := 7 }]
      totpCredentials :=
        [{ id := 4, userId := 1, secretEncrypted := "$kk", confirmedAt := some 60 }]
      recoveryCodes := [{ id := 5, userId := 1, codeHash := "$abcd-efgh-ijkl" }] }
  supply := 6

/-- Two calls that present the recovery code. -/
def presentedTwice : VerifyPool :=
  verifying .sample [(1, "abcd-efgh-ijkl"), (1, "abcd-efgh-ijkl")]
    (Shared.initial recoverableWorld ⟨90, false⟩)

/-- One call after the other. -/
def inTurn : List (ℕ × Input) :=
  List.replicate 5 (0, ⟨90, false⟩) ++ List.replicate 5 (1, ⟨91, false⟩)

/-- Both calls read the unused codes before one of them saves. -/
def overlapping : List (ℕ × Input) :=
  List.replicate 3 (0, ⟨90, false⟩) ++ List.replicate 3 (1, ⟨90, false⟩) ++
    List.replicate 2 (0, ⟨90, false⟩) ++ List.replicate 2 (1, ⟨91, false⟩)

set_option maxRecDepth 20000 in
theorem codesUsedOnce_of_asRead_sample :
    (presentedTwice.run inTurn).outcome? 0 = some (.ok (some .recoveryCode)) ∧
      (presentedTwice.run inTurn).outcome? 1 = some (.ok none) ∧
      CodesUsedOnce .sample [(1, "abcd-efgh-ijkl"), (1, "abcd-efgh-ijkl")]
        (Shared.initial recoverableWorld ⟨90, false⟩) (presentedTwice.run inTurn) :=
  ⟨by decide, by decide, codesUsedOnce_of_asRead (by decide) rfl
    (Pool.admitted_of_admitted? (by decide))⟩

/-- The stored code is the only one of its user, and no one-time password. -/
theorem recoveryCodeOf_sample : RecoveryCodeOf .sample recoverableWorld.db 1 "abcd-efgh-ijkl" := by
  constructor
  · intro left leftMember right rightMember _ _ _ _
    rw [List.mem_singleton.mp leftMember, List.mem_singleton.mp rightMember]
  · rintro credential member - timeStep ⟨secret, now, opened, found⟩
    rw [List.mem_singleton.mp member] at opened
    have text : secret = "kk" := (Option.some.inj opened).symm
    subst text
    cases found

set_option maxRecDepth 20000 in
/-- Overlapping calls both accept the same recovery code. -/
theorem accepted_twice_when_overlapping :
    (presentedTwice.run overlapping).outcome? 0 = some (.ok (some .recoveryCode)) ∧
      (presentedTwice.run overlapping).outcome? 1 = some (.ok (some .recoveryCode)) ∧
      ¬ CodesUsedOnce .sample [(1, "abcd-efgh-ijkl"), (1, "abcd-efgh-ijkl")]
        (Shared.initial recoverableWorld ⟨90, false⟩) (presentedTwice.run overlapping) := by
  have first : (presentedTwice.run overlapping).outcome? 0 = some (.ok (some .recoveryCode)) := by
    decide
  have second : (presentedTwice.run overlapping).outcome? 1 = some (.ok (some .recoveryCode)) := by
    decide
  refine ⟨first, second, ?_⟩
  intro once
  have same := once.once 0 1 1 "abcd-efgh-ijkl" recoveryCodeOf_sample rfl rfl ⟨_, first⟩ ⟨_, second⟩
  cases same

end AuthStartpack
