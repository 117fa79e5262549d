import AuthStartpack.Sessions.Refinement

/-!
Owns the completeness of reuse detection. In the ledger, the evidence that a
token was spent lasts until its session ends, and a revoked session stays
revoked. So every later presentation of a spent token is detected, revokes the
session, and ends its rotations for good.
-/

namespace AuthStartpack

namespace Ledger

/-- Until the session ends, the spent token with this hash is on record beside it. -/
def Evidence (hash : String) (sessionId : Guid) (expiry : Instant) (ledger : Ledger) : Prop :=
  ledger.clock < expiry → ∃ token ∈ ledger.tokens, ∃ session ∈ ledger.sessions,
    token.tokenHash = hash ∧ token.usedAt ≠ none ∧ token.sessionId = sessionId ∧
      session.id = sessionId ∧ session.absoluteExpiresAt = expiry

/-- The session with this id is revoked, if it is there. -/
abbrev Barred (sessionId : Guid) : Ledger → Prop :=
  Settled sessionId fun session => session.revokedAt ≠ none

section Steps

variable {policy : Policy} {before after : Ledger} {hash : String} {sessionId : Guid}
variable {expiry : Instant}

theorem Evidence.step (sound : Sound before) (step : Step policy before after)
    (evidence : Evidence hash sessionId expiry before) : Evidence hash sessionId expiry after := by
  intro inTime
  obtain ⟨token, tokenMember, session, sessionMember, sameHash, used, owner, owned, lifetime⟩ :=
    evidence (Int.lt_of_le_of_lt step.clock inTime)
  have full : token.expiresAt = expiry := by
    rw [← lifetime]
    exact (sound.lasting token tokenMember session sessionMember (owned.trans owner.symm)).spent
      used
  have kept : ∀ later ∈ after.tokens, later.tokenHash = token.tokenHash →
      later.usedAt = token.usedAt → later.sessionId = token.sessionId →
      ∀ current ∈ after.sessions, session.Evolves current →
      ∃ token ∈ after.tokens, ∃ session ∈ after.sessions,
        token.tokenHash = hash ∧ token.usedAt ≠ none ∧ token.sessionId = sessionId ∧
          session.id = sessionId ∧ session.absoluteExpiresAt = expiry := by
    intro later laterMember laterHash laterUsed laterOwner current currentMember evolved
    exact ⟨later, laterMember, current, currentMember, laterHash.trans sameHash,
      by rw [laterUsed]; exact used, laterOwner.trans owner, evolved.id.trans owned,
      evolved.absoluteExpiresAt.trans lifetime⟩
  cases step.change with
  | kept sessions tokens =>
      exact kept token (by rw [tokens]; exact tokenMember) rfl rfl rfl session
        (by rw [sessions]; exact sessionMember) (.refl session)
  | evolved write evolves sessions tokens =>
      exact kept token (by rw [tokens]; exact tokenMember) rfl rfl rfl (write session)
        (by rw [sessions]; exact List.mem_map_of_mem sessionMember) (evolves session sessionMember)
  | opened opened drawn given sessions tokens =>
      exact kept token (by rw [tokens]; exact tokenMember) rfl rfl rfl session
        (by rw [sessions]; exact List.mem_append_left _ sessionMember) (.refl session)
  | issued issuer issued issuerMember permitted issuedTo fresh sessions tokens =>
      exact kept token (by rw [tokens]; exact List.mem_append_left _ tokenMember) rfl
        rfl rfl session
        (by rw [sessions]; exact sessionMember) (.refl session)
  | rotated stored successor rotating now write spend rotates evolves keepsId keepsSession keepsHash
      spends sessions tokens =>
      have other : token.id ≠ stored.id := by
        intro same
        rw [sound.tokenIds.eq_of_key tokenMember rotates.member same] at used
        exact used rotates.unused
      refine kept token ?_ rfl rfl rfl (write session)
        (by rw [sessions]; exact List.mem_map_of_mem sessionMember) (evolves session sessionMember)
      rw [tokens]
      exact List.mem_append_left _ (Table.mem_updateWhere_of_not tokenMember (by simpa using other))
  | expired pred now outstanding reached sessions tokens =>
      have missed : pred token = false := by
        by_contra hit
        exact used (outstanding token (by simpa using hit)).1
      refine kept token ?_ rfl rfl rfl session (by rw [sessions]; exact sessionMember)
        (.refl session)
      rw [tokens]
      exact Table.mem_updateWhere_of_not tokenMember missed
  | forgotTokens pred permitted elapsed sessions tokens =>
      have missed : pred token = false := by
        by_contra hit
        obtain ⟨named, namedMember, sameId, ended⟩ := elapsed token tokenMember (by simpa using hit)
        rw [sound.tokenIds.eq_of_key namedMember tokenMember sameId, full] at ended
        exact absurd (Int.lt_of_lt_of_le inTime ended) (Int.lt_irrefl _)
      refine kept token ?_ rfl rfl rfl session (by rw [sessions]; exact sessionMember)
        (.refl session)
      rw [tokens, Table.mem_deleteWhere]
      exact ⟨tokenMember, missed⟩
  | forgotSessions pred permitted elapsed sessions tokens =>
      have missed : ∀ other ∈ before.sessions, other.id = sessionId → pred other = false := by
        intro other otherMember sameId
        by_contra hit
        obtain ⟨named, namedMember, namedId, ended⟩ :=
          elapsed other otherMember (by simpa using hit)
        have same : named = session :=
          sound.sessionIds.eq_of_key namedMember sessionMember
            (namedId.trans (sameId.trans owned.symm))
        rw [same, lifetime] at ended
        exact absurd (Int.lt_of_lt_of_le inTime ended) (Int.lt_irrefl _)
      refine kept token ?_ rfl rfl rfl session ?_ (.refl session)
      · rw [tokens, Table.mem_deleteWhere, List.any_eq_false]
        refine ⟨tokenMember, ?_⟩
        intro other otherMember
        simp only [Bool.and_eq_true, decide_eq_true_eq, not_and, Bool.not_eq_true]
        intro sameId
        exact missed other otherMember (sameId.trans owner)
      · rw [sessions, Table.mem_deleteWhere]
        exact ⟨sessionMember, missed session sessionMember owned⟩

end Steps

section Runs

variable {policy : Policy} {before after : Ledger} {hash : String} {sessionId : Guid}
variable {expiry : Instant}

theorem Evidence.run (sound : Sound before) (run : Run policy before after)
    (evidence : Evidence hash sessionId expiry before) : Evidence hash sessionId expiry after := by
  have both : Sound after ∧ Evidence hash sessionId expiry after :=
    run.induct (fun ledger => Sound ledger ∧ Evidence hash sessionId expiry ledger)
      ⟨sound, evidence⟩ fun _ _ holds step => ⟨holds.1.step step, holds.2.step holds.1 step⟩
  exact both.2

theorem Barred.run (run : Run policy before after) (barred : Barred sessionId before) :
    Barred sessionId after :=
  Settled.run (fun _ _ evolves => evolves.revoked) run barred

end Runs

end Ledger

/-- The state that a run begins in: no refresh token yet, and sessions whose ids are different and
were given out. -/
structure StartsFresh (start : State) : Prop where
  tokens : start.store.db.refreshTokens = []
  sessionIds : Table.Keyed Session.id start.store.db.sessions
  sessionSupply : ∀ session ∈ start.store.db.sessions, session.id < start.store.supply

theorem StartsFresh.sound {start : State} (fresh : StartsFresh start) : start.ledger.Sound where
  sessionIds := fresh.sessionIds
  tokenIds := by
    simp only [Shared.ledger, fresh.tokens]
    exact List.nodup_nil
  tokenHashes := by
    simp only [Shared.ledger, fresh.tokens]
    exact List.nodup_nil
  sessionSupply := fresh.sessionSupply
  tokenSupply := by simp [Shared.ledger, fresh.tokens]
  owned := by simp [Shared.ledger, fresh.tokens]
  lasting := by simp [Shared.ledger, fresh.tokens]

namespace RefreshTokenService

section Runs

variable {services : Services} {hash : String} {before after : State}

/-- A rotation leaves the evidence of its token. -/
theorem evidence_of_rotated {result : RefreshResult} {sessionId : Guid} {session : Session}
    (run : RotationRun services hash before (.ok result) after) (sound : before.ledger.Sound)
    (rotated : result.outcome = .rotated) (owns : result.sessionId = some sessionId)
    (member : session ∈ before.store.db.sessions) (same : session.id = sessionId) :
    after.ledger.Evidence hash sessionId session.absoluteExpiresAt := by
  intro _
  cases run with
  | refused _ _ refusal =>
      cases refusal with
      | notFound => cases rotated
      | unspent outcome found unused different => exact absurd rotated different.1
  | replayed => cases rotated
  | rotated _ stored successor found now savedAt access refresh checked successorOf freshHash
      leaves =>
      obtain ⟨storedMember, storedHash, foundMember, owner⟩ := presented_eq_single checked.found
      obtain rfl : found.id = sessionId := Option.some.inj owns
      obtain rfl : session = found := sound.sessionIds.eq_of_key member foundMember same
      obtain ⟨later, laterMember, evolved⟩ :=
        mem_writtenSessions (slide_evolves session now savedAt) foundMember
      refine ⟨spentRow stored now savedAt successor.id stored, ?_, later, ?_, ?_, ?_, owner.symm,
        evolved.id, evolved.absoluteExpiresAt⟩
      · simp only [Shared.ledger, leaves.tokens]
        exact mem_rotatedTokens_of_spent storedMember rfl
      · simp only [Shared.ledger, leaves.sessions]
        exact laterMember
      · rw [spentRow_tokenHash, storedHash]
      · rw [spentRow_usedAt checked.accepted.unused]
        rintro ⟨⟩

/-- The commit of a replay leaves the session revoked. -/
theorem revoked_of_replay {sessions : List Session} {session : Session} {now savedAt : Instant}
    (keyed : Table.Keyed Session.id sessions) (member : session ∈ sessions) :
    ∀ row ∈ writtenSessions session (revokeForReuse session now) savedAt sessions,
      row.id = session.id → row.revokedAt ≠ none := by
  intro row written same
  rcases Table.mem_updateWhere_cases written with ⟨old, miss⟩ | ⟨old, oldMember, hit, rfl⟩
  · -- The row was not written: it was revoked like this already.
    have unmodified : revokeForReuse session now = session := by
      simpa [same] using miss
    rw [keyed.eq_of_key old member same, ← unmodified]
    rintro ⟨⟩
  · simp only [Bool.and_eq_true, decide_eq_true_eq] at hit
    have written : (revokeForReuse session now).revokedAt = some now := rfl
    rw [keyed.eq_of_key oldMember member hit.1]
    simp only [Session.merge, changed]
    split
    · rw [← ‹(revokeForReuse session now).revokedAt = session.revokedAt›, written]
      rintro ⟨⟩
    · rintro ⟨⟩

/-- While the evidence of a token lasts, presenting it is a replay. -/
theorem replayed_of_evidence {sessionId : Guid} {expiry : Instant}
    {outcome : Except AppException RefreshResult}
    (run : RotationRun services hash before outcome after) (sound : before.ledger.Sound)
    (evidence : before.ledger.Evidence hash sessionId expiry) (inTime : before.last.now < expiry) :
    outcome = .ok (.failure .reuseDetected (some sessionId)) ∧
      (∃ row ∈ after.store.db.sessions, row.id = sessionId ∧ row.revokedAt ≠ none) ∧
      after.ledger.Barred sessionId := by
  obtain ⟨token, tokenMember, session, sessionMember, sameHash, used, owner, owned, -⟩ :=
    evidence inTime
  have found : presented hash before.store.db = [(token, session)] := by
    rw [← sameHash]
    exact presented_of_keyed sound.tokenHashes sound.sessionIds tokenMember sessionMember
      (owned.trans owner.symm)
  have only : ∀ other current, presented hash before.store.db = [(other, current)] →
      other = token ∧ current = session := by
    intro other current presents
    simpa [found] using presents.symm
  cases run with
  | refused _ _ refusal =>
      cases refusal with
      | notFound missing =>
          rw [found] at missing
          cases missing
      | unspent _ presents unused _ =>
          obtain ⟨rfl, -⟩ := only _ _ presents
          exact absurd unused used
  | threw _ _ unspent => exact absurd (unspent token session found) used
  | rotated _ stored successor current now savedAt access refresh checked =>
      obtain ⟨rfl, -⟩ := only _ _ checked.found
      exact absurd checked.accepted.unused used
  | replayed _ other current now savedAt presents _ leaves =>
      obtain ⟨-, rfl⟩ := only _ _ presents
      rw [owned]
      have revoked : ∀ row ∈ after.store.db.sessions, row.id = sessionId →
          row.revokedAt ≠ none := by
        rw [leaves.sessions, ← owned]
        exact revoked_of_replay sound.sessionIds sessionMember
      refine ⟨rfl, ?_, ?_, revoked⟩
      · obtain ⟨later, laterMember, evolved⟩ :=
          mem_writtenSessions (revokeForReuse_evolves current now savedAt) sessionMember
        have stored : later ∈ after.store.db.sessions := by
          rw [leaves.sessions]
          exact laterMember
        have sameId := evolved.id.trans owned
        exact ⟨later, stored, sameId, revoked later stored sameId⟩
      · rw [← owned]
        exact Nat.lt_of_lt_of_le (sound.sessionSupply current sessionMember) leaves.supply

/-- A rotation does not succeed in a revoked session. -/
theorem not_rotated_of_barred {result : RefreshResult} {sessionId : Guid}
    (run : RotationRun services hash before (.ok result) after)
    (barred : before.ledger.Barred sessionId) (rotated : result.outcome = .rotated) :
    result.sessionId ≠ some sessionId := by
  intro owns
  cases run with
  | refused _ _ refusal =>
      cases refusal with
      | notFound => cases rotated
      | unspent outcome found unused different => exact absurd rotated different.1
  | replayed => cases rotated
  | rotated _ stored successor found now savedAt access refresh checked successorOf freshHash
      leaves =>
      obtain ⟨-, -, foundMember, -⟩ := presented_eq_single checked.found
      exact barred.2 found foundMember (Option.some.inj owns) checked.accepted.live

end Runs

end RefreshTokenService

/-! ### Runs -/

/-- The token that a rotation presents. -/
def SessionOperation.presented? : SessionOperation → Option String
  | .rotate _ token => some token
  | _ => none

namespace Record

/-- What a rotation has answered. -/
def refreshed? (record : SessionRecord) : Option RefreshResult :=
  match record.outcome with
  | .ok (.refreshed result) => some result
  | _ => none

/-- The operation is a rotation that presents this token. -/
abbrev Presents (record : SessionRecord) (token : String) : Prop :=
  record.op.presented? = some token

/-- The operation is a rotation of this token that succeeded, in this session. -/
abbrev Rotated (record : SessionRecord) (token : String) (sessionId : Guid) : Prop :=
  record.Presents token ∧
    ∃ result ∈ record.refreshed?, result.outcome = .rotated ∧ result.sessionId = some sessionId

end Record

section Runs

variable {services : Services} {start final : State} {history : List SessionRecord}

/-- What a rotation in a history has done. -/
theorem rotationRun_of_presents (runs : RunsTo Timely (SessionOperation.program services) start
      history final) {position : ℕ} {record : SessionRecord} {token : String}
    (found : history[position]? = some record) (presents : record.Presents token) :
    ∃ answer, record.outcome = Except.map .refreshed answer ∧
      RefreshTokenService.RotationRun services
      (services.tokenGenerator.hash token) record.before answer record.after := by
  obtain ⟨op, before, outcome, after⟩ := record
  cases op with
  | rotate http presented =>
      obtain rfl := Option.some.inj presents
      exact rotation_completes (runs.record found).2
  | _ => cases presents

/-- What a successful rotation in a history has done. -/
theorem rotationRun_of_rotated (runs : RunsTo Timely (SessionOperation.program services) start
      history final) {position : ℕ} {record : SessionRecord} {token : String} {sessionId : Guid}
    (found : history[position]? = some record) (rotated : record.Rotated token sessionId) :
    ∃ result, result.outcome = .rotated ∧ result.sessionId = some sessionId ∧
      RefreshTokenService.RotationRun services (services.tokenGenerator.hash token) record.before
        (.ok result) record.after := by
  obtain ⟨presents, result, answered, succeeded, owns⟩ := rotated
  obtain ⟨answer, outcome, run⟩ := rotationRun_of_presents runs found presents
  simp only [Record.refreshed?, outcome] at answered
  cases answer with
  | error exception => cases answered
  | ok _ =>
      cases answered
      exact ⟨result, succeeded, owns, run⟩

theorem entered_between
    (runs : RunsTo Timely (SessionOperation.program services) start history final)
    {left right : ℕ} (order : left < right) {earlier later : SessionRecord}
    (leftFound : history[left]? = some earlier) (rightFound : history[right]? = some later) :
    Entered .free earlier.after later.before :=
  runs.between (fun _ => .refl) (fun _ _ _ => .trans)
    (fun _ _ _ _ _ completes => SessionOperation.entered completes) order leftFound rightFound

/-- Reuse detection is complete. -/
theorem reuse_detected (fresh : StartsFresh start)
    (runs : RunsTo Timely (SessionOperation.program services) start history final)
    {first second : ℕ} (order : first < second) {spending replay : SessionRecord} {token : String}
    {session : Session} (spendingAt : history[first]? = some spending)
    (replayAt : history[second]? = some replay)
    (member : session ∈ spending.before.store.db.sessions)
    (rotated : spending.Rotated token session.id) (presents : replay.Presents token)
    (inTime : replay.before.last.now < session.absoluteExpiresAt) :
    replay.outcome = .ok (.refreshed (.failure .reuseDetected (some session.id))) ∧
      (∃ row ∈ replay.after.store.db.sessions, row.id = session.id ∧ row.revokedAt ≠ none) ∧
      ∀ third later other, second < third → history[third]? = some later →
        ¬ later.Rotated other session.id := by
  obtain ⟨result, succeeded, owns, spent⟩ := rotationRun_of_rotated runs spendingAt rotated
  obtain ⟨answer, answered, rotation⟩ := rotationRun_of_presents runs replayAt presents
  have soundSpending : spending.before.ledger.Sound :=
    fresh.sound.run (entered_of_runs (runs.record spendingAt).1)
  have entered : Entered .free spending.before spending.after :=
    RefreshTokenService.rotationRun_refines spent
  have soundSpent := soundSpending.run entered
  have evidence : spending.after.ledger.Evidence (services.tokenGenerator.hash token) session.id
      session.absoluteExpiresAt :=
    RefreshTokenService.evidence_of_rotated spent soundSpending succeeded owns member rfl
  have meantime := entered_between runs order spendingAt replayAt
  obtain ⟨rfl, revoked, barred⟩ := RefreshTokenService.replayed_of_evidence rotation
    (soundSpent.run meantime) (evidence.run soundSpent meantime) inTime
  refine ⟨answered, revoked, ?_⟩
  intro third later other afterwards laterAt again
  obtain ⟨laterResult, laterSucceeded, laterOwns, laterRun⟩ :=
    rotationRun_of_rotated runs laterAt again
  exact RefreshTokenService.not_rotated_of_barred laterRun
    (barred.run (entered_between runs afterwards replayAt laterAt)) laterSucceeded laterOwns

end Runs

/-- A session with its owner, before its first token is issued. -/
def signedInWorld : World :=
  let world := RefreshTokenService.sampleWorld
  { world with db := { world.db with refreshTokens := [] } }

/-- The first token of the session is rotated, and presented again after a cleanup. -/
def replayedRun : Option (List SessionRecord × State) :=
  RunsTo.executeAll Timely (SessionOperation.program .sample)
    [(.issue 2, ⟨10, false⟩), (.rotate {} "tttt", ⟨20, false⟩), (.cleanup, ⟨20, false⟩),
      (.rotate {} "tttt", ⟨30, false⟩)] [] (Shared.initial signedInWorld ⟨10, false⟩)

set_option maxRecDepth 20000 in
theorem replayedRun_any :
    replayedRun.any (fun run =>
      run.1[1]?.any (fun spending => spending.Rotated "tttt" 2 ∧
        ∃ session ∈ spending.before.store.db.sessions, session.id = 2 ∧
          session.absoluteExpiresAt = 10080) ∧
      run.1[3]?.any fun replay => replay.Presents "tttt" ∧ replay.before.last.now = 20) = true := by
  decide

theorem reuse_detected_sample :
    ∃ history final replay, replayedRun = some (history, final) ∧ history[3]? = some replay ∧
      replay.outcome = .ok (.refreshed (.failure .reuseDetected (some 2))) ∧
      ∃ row ∈ replay.after.store.db.sessions, row.id = 2 ∧ row.revokedAt ≠ none := by
  obtain ⟨⟨history, final⟩, ran, checked⟩ := (Option.any_eq_true _ _).mp replayedRun_any
  simp only [decide_eq_true_eq, Option.any_eq_true] at checked
  obtain ⟨⟨spending, spendingAt, rotated, session, member, owned, lifetime⟩, replay, replayAt,
    presents, reading⟩ := checked
  have fresh : StartsFresh (Shared.initial signedInWorld ⟨10, false⟩) :=
    ⟨rfl, by decide, by decide⟩
  have detected := reuse_detected fresh (.of_executeAll .start ran) (by decide) spendingAt replayAt
    member (owned ▸ rotated) presents (by rw [reading, lifetime]; decide)
  rw [owned] at detected
  exact ⟨history, final, replay, ran, replayAt, detected.1, detected.2.1⟩

end AuthStartpack
