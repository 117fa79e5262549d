import AuthStartpack.Mfa.HighWaterMarks
import AuthStartpack.Program.Pool
import AuthStartpack.Services.OperationFrames
import Mathlib.Order.Nat

/-!
Owns the signature counter of passkeys under concurrency. `SignCount` is the
high-water mark of a passkey: an assertion is compared with the counter that was
read, and its counter is saved in a later step without looking at the row again.
So the counters grow in the interleavings in which no other save has changed the
counter of the passkey since the call read it.
-/

namespace AuthStartpack

/-- The passkey and the counter of an accepted assertion, if the authenticator counts. -/
def Event.assertedCounter? : Event → Option (Guid × ℕ)
  | .passkeyAsserted credential signCount =>
      if signCount = 0 then none else some (credential.id, signCount)
  | _ => none

/-- The non-zero counters of accepted assertions, in the order of their commits. -/
def Shared.assertedCounters (state : State) : List (Guid × ℕ) :=
  state.journal.filterMap fun entry => entry.event.assertedCounter?

@[simp]
theorem Shared.assertedCounters_advance (state : State) (call : ℕ) (input : Input)
    (outcome : World × List Event) :
    (state.advance call input outcome).assertedCounters =
      state.assertedCounters ++ outcome.2.filterMap Event.assertedCounter? := by
  simp [Shared.assertedCounters, List.filterMap_append, List.filterMap_map]

/-- A save of a non-zero counter finds the `SignCount` that the call had read: no other save has
changed it in between. -/
def AssertsAsRead (state : State) (_ : ℕ) (_ : Input) (events : List Event) : Prop :=
  ∀ event ∈ events, match event with
    | .passkeyAsserted credential signCount => signCount ≠ 0 →
        ∀ row ∈ state.store.db.passkeyCredentials, row.id = credential.id →
          row.signCount = credential.signCount
    | _ => True

instance (state : State) (call : ℕ) (input : Input) (events : List Event) :
    Decidable (AssertsAsRead state call input events) := by
  refine @List.decidableBAll _ _ (fun event => ?_) events
  split <;> infer_instance

/-- The marks are the stored counters. -/
structure TracksCounters (marks : Marks Guid ℕ) (state : State) : Prop where
  keyed : Table.Keyed PasskeyCredential.id state.store.db.passkeyCredentials
  live : ∀ row ∈ state.store.db.passkeyCredentials, marks.highest row.id = some row.signCount
  accepted : marks.accepted = state.assertedCounters

/-- What every step of an assertion keeps. -/
structure CountsAssertions (before after : State) : Prop where
  follows : Marks.Follows TracksCounters before after
  passkeys : after.store.db.passkeyCredentials.map PasskeyCredential.id =
    before.store.db.passkeyCredentials.map PasskeyCredential.id

namespace CountsAssertions

theorem refl (state : State) : CountsAssertions state state := ⟨.refl state, rfl⟩

theorem trans (first second third : State) (early : CountsAssertions first second)
    (late : CountsAssertions second third) : CountsAssertions first third :=
  ⟨early.follows.trans late.follows, late.passkeys.trans early.passkeys⟩

/-- A step that leaves the passkeys alone. -/
theorem of_same {before after : State}
    (passkeys : after.store.db.passkeyCredentials = before.store.db.passkeyCredentials)
    (accepted : after.assertedCounters = before.assertedCounters) :
      CountsAssertions before after := by
  refine ⟨.of_same ?_, by rw [passkeys]⟩
  intro marks tracks
  constructor
  · rw [passkeys]
    exact tracks.keyed
  · rw [passkeys]
    exact tracks.live
  · rw [accepted]
    exact tracks.accepted

/-- The passkeys after the save of an assertion. -/
def asserted (original : PasskeyCredential) (signCount : ℕ) (usedAt savedAt : Instant)
    (rows : List PasskeyCredential) : List PasskeyCredential :=
  let current := { original with signCount, lastUsedAt := some usedAt }
  Table.updateWhere (fun row => row.id = original.id && current ≠ original)
    (original.merge current savedAt) rows

section Asserted

variable {original : PasskeyCredential} {signCount : ℕ} {usedAt savedAt : Instant}
variable {rows : List PasskeyCredential}

theorem asserted_ids :
    (asserted original signCount usedAt savedAt rows).map PasskeyCredential.id =
      rows.map PasskeyCredential.id :=
  Table.map_updateWhere fun _ => rfl

/-- The counter of a row after the save. -/
theorem asserted_cases {later : PasskeyCredential}
    (member : later ∈ asserted original signCount usedAt savedAt rows) :
    ∃ old ∈ rows, old.id = later.id ∧ later.signCount =
      if old.id = original.id then changed original.signCount signCount old.signCount
      else old.signCount := by
  rcases Table.mem_updateWhere_cases member with ⟨old, miss⟩ | ⟨old, oldMember, hit, rfl⟩
  · refine ⟨later, old, rfl, ?_⟩
    split
    case isFalse => rfl
    case isTrue same =>
      have equal : ({ original with signCount, lastUsedAt := some usedAt } : PasskeyCredential) =
          original := by simpa [same] using miss
      have counter : signCount = original.signCount := congrArg PasskeyCredential.signCount equal
      rw [counter, changed_self]
  · have same : old.id = original.id := by
      simp only [Bool.and_eq_true, decide_eq_true_eq] at hit
      exact hit.1
    refine ⟨old, oldMember, rfl, ?_⟩
    simp [PasskeyCredential.merge, same]

end Asserted

/-- The save of an assertion that was compared with the counter that was read. -/
theorem of_assertion {before after : State} {original : PasskeyCredential} {signCount : ℕ}
    {usedAt savedAt : Instant} (compared : original.signCount = 0 ∨ original.signCount < signCount)
    (stored : signCount ≠ original.signCount →
      ∃ row ∈ before.store.db.passkeyCredentials, row.id = original.id)
    (forward : signCount ≠ 0 → ∀ row ∈ before.store.db.passkeyCredentials, row.id = original.id →
      row.signCount < signCount)
    (passkeys : after.store.db.passkeyCredentials =
      asserted original signCount usedAt savedAt before.store.db.passkeyCredentials)
    (accepted : after.assertedCounters = before.assertedCounters ++
      if signCount = 0 then [] else [(original.id, signCount)]) :
          CountsAssertions before after := by
  refine ⟨?_, by rw [passkeys, asserted_ids]⟩
  intro marks tracks
  have keyed : Table.Keyed PasskeyCredential.id after.store.db.passkeyCredentials := by
    unfold Table.Keyed
    rw [passkeys, asserted_ids]
    exact tracks.keyed
  by_cases counting : signCount = 0
  case pos =>
    -- A counter of zero is accepted only against zero, and its save leaves the column alone.
    have read : original.signCount = signCount := by omega
    refine ⟨marks, .refl, keyed, ?_, ?_⟩
    · rw [passkeys]
      intro later member
      obtain ⟨old, oldMember, sameId, counter⟩ := asserted_cases member
      rw [← read, changed_self, ite_self] at counter
      rw [← sameId, counter]
      exact tracks.live old oldMember
    · rw [accepted, if_pos counting, List.append_nil]
      exact tracks.accepted
  case neg =>
    have different : signCount ≠ original.signCount := by omega
    have above : marks.Above original.id signCount := by
      obtain ⟨row, member, same⟩ := stored different
      intro mark marked
      rw [← same, tracks.live row member] at marked
      cases marked
      exact forward counting row member same
    refine ⟨marks.accept original.id signCount, .single (.accept _ _ above), keyed, ?_, ?_⟩
    · rw [passkeys]
      intro later member
      obtain ⟨old, oldMember, sameId, counter⟩ := asserted_cases member
      rw [← sameId, counter]
      by_cases own : old.id = original.id
      · simp [Marks.accept, own, changed, different]
      · simp [Marks.accept, own, tracks.live old oldMember]
    · rw [accepted, if_neg counting, ← tracks.accepted]
      rfl

end CountsAssertions

/-- Any interleaving in which the counters are saved so. -/
def Law.counting : Law Input World Event := .concurrent AssertsAsRead CountsAssertions

instance : Frames .counting CountsAssertions Db.passkeyCredentials (·.assertedCounter?.isSome) := by
  refine Frames.concurrent CountsAssertions.refl CountsAssertions.trans (fun _ _ => rfl) ?_
  intro state call input world events _ same _ silent
  refine CountsAssertions.of_same same ?_
  have none : events.filterMap Event.assertedCounter? = [] := by
    rw [List.filterMap_eq_nil_iff]
    intro event member
    simpa using silent event member
  rw [Shared.assertedCounters_advance, none, List.append_nil]

namespace PasskeyService

variable {services : Services} {fido2 : Fido2} {http : HttpContext}

/-- The save of an accepted assertion. -/
theorem assertion_counts {credential : PasskeyCredential} {signCount : ℕ} {usedAt : Instant}
    (compared : credential.signCount = 0 ∨ credential.signCount < signCount) :
    Keeps .counting CountsAssertions (Action.saveChanges
      (fun now db => db.updatePasskeyCredential now credential
        { credential with signCount, lastUsedAt := some usedAt })
      fun _ => [.passkeyAsserted credential signCount]) := by
  refine .saveChanges ?_
  intro call start current input db relied saved asRead
  obtain ⟨found, rfl⟩ := Db.updatePasskeyCredential_eq_ok.mp saved
  have written : CountsAssertions current (current.advance call input ({ current.store with
      db := { current.store.db with
        passkeyCredentials := CountsAssertions.asserted credential signCount usedAt input.now
          current.store.db.passkeyCredentials } }, [.passkeyAsserted credential signCount])) := by
    refine CountsAssertions.of_assertion compared ?_ ?_ rfl ?_
    · intro different
      refine found.resolve_left ?_
      intro equal
      exact different (congrArg PasskeyCredential.signCount equal)
    · -- the counter was compared with the one as read, which is the stored one of now
      intro counting row member same
      have unchanged := asRead (.passkeyAsserted credential signCount) List.mem_cons_self
      rw [unchanged counting row member same]
      omega
    · rw [Shared.assertedCounters_advance]
      by_cases counting : signCount = 0 <;> simp [Event.assertedCounter?, counting]
  exact ⟨written, relied.1.trans _ _ _ written⟩

theorem completeAuthenticationAsync_counts (request : AuthenticatorResponse) :
    Keeps .counting CountsAssertions (completeAuthenticationAsync services fido2 http request) := by
  refine .tryCatch ?_ fun _ => .throw _
  refine .bind (.orThrow _ _) fun raw => .bind (.orThrow _ _) fun challenge => ?_
  refine .bind (consumeChallengeAsync_frame (consumesKept_frame (fun _ _ => rfl)
    (fun _ => Bool.false_ne_true) _) services _ _) fun _ => ?_
  refine .bind (.orThrow _ _) fun credentialId => .bind (.queryOrThrow _) fun found => ?_
  refine .bind (.orThrow _ _) fun credential => .guard ?_
  refine .bind (.orThrow _ _) fun signCount => ?_
  split
  case isTrue => exact .throw _
  case isFalse accepted =>
    have compared : credential.signCount = 0 ∨ credential.signCount < signCount := by
      simp only [Bool.and_eq_true, decide_eq_true_eq, not_and, not_le] at accepted
      exact Decidable.or_iff_not_imp_left.mpr accepted
    refine .bind .utcNow fun _ => .bind (assertion_counts compared) fun _ => ?_
    refine .bind (AuthenticationSessionFactory.createAsync_frame ?_ ?_ services http _ _)
      fun _ => ?_
    · exact fun _ _ => rfl
    · exact fun _ _ => rfl
    · exact .bind (.logAsync http _ _) fun _ => .pure _

end PasskeyService

/-! ### Concurrent assertions -/

abbrev AssertionPool := Pool Input World Event AppException LoginResponse

/-- Assertions that have not been completed. -/
def asserting (services : Services) (fido2 : Fido2)
    (requests : List (HttpContext × AuthenticatorResponse))
    (start : State) : AssertionPool where
  shared := start
  calls := requests.map fun request =>
    PasskeyService.completeAuthenticationAsync services fido2 request.1 request.2

/-- The non-zero counters that were accepted increase for each passkey, in the order of the
commits, and no stored counter decreases between two moments of the run. -/
structure CountersGrow (pool : AssertionPool) (schedule : List (ℕ × Input)) : Prop where
  increasing : (pool.run schedule).shared.assertedCounters.Pairwise
    fun earlier later => earlier.1 = later.1 → earlier.2 < later.2
  raised : ∀ before after, schedule = before ++ after →
    ∀ old ∈ (pool.run before).shared.store.db.passkeyCredentials,
      ∃ later ∈ (pool.run schedule).shared.store.db.passkeyCredentials,
        later.id = old.id ∧ old.signCount ≤ later.signCount

/-- The marks of the stored passkeys. -/
def counterMarks (state : State) : Marks Guid ℕ where
  highest id := (state.store.db.passkeyCredentials.find? (·.id = id)).map (·.signCount)
  accepted := []

theorem counterMarks_sound (state : State) : (counterMarks state).Sound where
  bounded _ _ member := nomatch member
  once := List.nodup_nil

theorem tracks_counterMarks {state : State}
    (keyed : Table.Keyed PasskeyCredential.id state.store.db.passkeyCredentials)
    (silent : state.journal = []) : TracksCounters (counterMarks state) state where
  keyed := keyed
  live row member := by simp only [counterMarks, keyed.find?_key member, Option.map_some]
  accepted := by simp [counterMarks, Shared.assertedCounters, silent]

/-- The stored counters are not below those of an earlier state. -/
theorem CountsAssertions.raised {marks : Marks Guid ℕ} {before after : State}
    (tracks : TracksCounters marks before) (kept : CountsAssertions before after) :
    ∀ old ∈ before.store.db.passkeyCredentials, ∃ later ∈ after.store.db.passkeyCredentials,
      later.id = old.id ∧ old.signCount ≤ later.signCount := by
  intro old member
  obtain ⟨laterMarks, run, tracked⟩ := kept.follows marks tracks
  have present := List.mem_map_of_mem (f := PasskeyCredential.id) member
  rw [← kept.passkeys] at present
  obtain ⟨later, laterMember, same⟩ := List.mem_map.mp present
  have marked : old.signCount ∈ marks.highest old.id := by rw [tracks.live old member]; rfl
  obtain ⟨mark, laterMarked, reached⟩ := Marks.Run.raised run old.id old.signCount marked
  rw [← same, tracked.live later laterMember] at laterMarked
  cases laterMarked
  exact ⟨later, laterMember, same, reached⟩

/-- Signature counters grow in every interleaving in which no other save changes a counter between
the read of a call and its save. -/
theorem countersGrow_of_asRead {services : Services} {fido2 : Fido2}
    {requests : List (HttpContext × AuthenticatorResponse)} {start : State}
    (keyed : Table.Keyed PasskeyCredential.id start.store.db.passkeyCredentials)
    (silent : start.journal = []) {schedule : List (ℕ × Input)}
    (asRead : (asserting services fido2 requests start).Admitted AssertsAsRead schedule) :
    CountersGrow (asserting services fido2 requests start) schedule := by
  have tracks := tracks_counterMarks keyed silent
  have verified : (asserting services fido2 requests start).Verified AssertsAsRead CountsAssertions
      fun _ _ _ => True := by
    refine Pool.verified_of_wp CountsAssertions.refl ?_
    intro call program found
    simp only [asserting, List.getElem?_map, Option.map_eq_some_iff] at found
    obtain ⟨request, -, rfl⟩ := found
    refine Program.wp_mono
      (PasskeyService.completeAuthenticationAsync_counts request.2 call start) ?_
    intro _ _ _
    trivial
  constructor
  case increasing =>
    obtain ⟨kept, -⟩ := Pool.run_wp CountsAssertions.refl CountsAssertions.trans verified asRead
    obtain ⟨marks, run, tracked⟩ := kept.follows _ tracks
    have increasing := Marks.Run.increasing run (counterMarks_sound start) List.Pairwise.nil
    unfold Marks.Increasing at increasing
    rw [tracked.accepted] at increasing
    exact increasing
  case raised =>
    rintro before after rfl
    obtain ⟨first, second⟩ := Pool.admitted_append.mp asRead
    obtain ⟨early, running⟩ :=
      Pool.run_wp CountsAssertions.refl CountsAssertions.trans verified first
    obtain ⟨late, -⟩ := Pool.run_wp CountsAssertions.refl CountsAssertions.trans running second
    obtain ⟨marks, -, tracked⟩ := early.follows _ tracks
    rw [Pool.run_append]
    exact late.raised tracked

/-- A package whose assertions carry their counter as their length. -/
def Fido2.sample : Fido2 where
  makeNewCredential _ _ _ := none
  makeAssertion params :=
    let counter := params.assertionResponse.length
    if params.storedSignatureCounter ≠ 0 && counter ≤ params.storedSignatureCounter then none
    else some counter

/-- A user with a passkey that has counted to five, and two challenges. -/
def passkeyWorld : World where
  db :=
    { users := [{ id := 1, email := "ada@example.test", emailVerified := true, securityStamp := 7 }]
      passkeyCredentials :=
        [{ id := 2, userId := 1, credentialId := "key", publicKey := "public", signCount := 5,
           aaguid := 0 }]
      verificationTokens :=
        [{ id := 3
           type := .passkeyAuthenticationChallenge
           tokenHash := "sha256:one"
           expiresAt := 200 },
         { id := 4
           type := .passkeyAuthenticationChallenge
           tokenHash := "sha256:two"
           expiresAt := 200 }] }
  supply := 5

/-- Two assertions, with these counters. -/
def twoAssertions (first second : String) : AssertionPool :=
  asserting .sample .sample
    [({}, ⟨some first, some "one", some "key"⟩), ({}, ⟨some second, some "two", some "key"⟩)]
    (Shared.initial passkeyWorld ⟨90, false⟩)

/-- The first assertion is saved before the second reads the passkey. -/
def assertedInTurn : List (ℕ × Input) :=
  List.replicate 5 (0, ⟨90, false⟩) ++ List.replicate 5 (1, ⟨91, false⟩)

/-- Both assertions read the passkey before one of them is saved. -/
def bothReadThePasskey : List (ℕ × Input) :=
  List.replicate 3 (0, ⟨90, false⟩) ++ List.replicate 3 (1, ⟨90, false⟩) ++
    List.replicate 2 (0, ⟨91, false⟩) ++ List.replicate 2 (1, ⟨92, false⟩)

set_option maxRecDepth 20000 in
theorem countersGrow_of_asRead_sample :
    ((twoAssertions "sevensx" "ten-letter").run assertedInTurn).shared.assertedCounters =
        [(2, 7), (2, 10)] ∧
      CountersGrow (twoAssertions "sevensx" "ten-letter") assertedInTurn :=
  ⟨by decide, countersGrow_of_asRead (by decide) rfl (Pool.admitted_of_admitted? (by decide))⟩

set_option maxRecDepth 20000 in
/-- An assertion with a smaller counter is accepted after one with a larger counter, and takes the
stored counter back. -/
theorem counter_falls_when_both_read :
    ((twoAssertions "ten-letter" "sevensx").run bothReadThePasskey).shared.assertedCounters =
        [(2, 10), (2, 7)] ∧
      ((twoAssertions "ten-letter" "sevensx").run
        bothReadThePasskey).shared.store.db.passkeyCredentials.map
        (·.signCount) = [7] ∧
      ¬ CountersGrow (twoAssertions "ten-letter" "sevensx") bothReadThePasskey := by
  have accepted : ((twoAssertions "ten-letter" "sevensx").run
      bothReadThePasskey).shared.assertedCounters = [(2, 10), (2, 7)] := by
    decide
  refine ⟨accepted, by decide, ?_⟩
  intro grow
  have increasing := grow.increasing
  rw [accepted] at increasing
  exact absurd increasing (by decide)

end AuthStartpack
