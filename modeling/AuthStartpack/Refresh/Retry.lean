import AuthStartpack.Program.Sequential
import AuthStartpack.Refresh.Rotation

/-!
Owns the runs of the delegate of `RotateAsync` after a transient failure. The
delegate is run again with the same context, whose change tracker keeps what the
failed run assigned. So a retried rotation finds its own token used and takes it
for a replay, and a retried replay sends only what it has not sent before.
-/

namespace AuthStartpack

/-- The event is a transient failure of a save or a commit. -/
def Event.isFault : Event → Bool
  | .saveFailed => true
  | .commitFailed _ => true
  | _ => false

/-- The pattern of the transient failures of a run. -/
def faults (events : List Event) : List Event := events.filter Event.isFault

namespace RefreshTokenService

/-! ### Replays over a tracker that is kept -/

/-- A tracker that follows the presented token and its session. -/
def tracking (tokens : List (Tracked RefreshToken)) (original current : Session) :
    ChangeTracker where
  sessions := [⟨.unchanged, original, current⟩]
  refreshTokens := tokens

theorem tracking_changes {tokens : List (Tracked RefreshToken)} {original current : Session}
    {savedAt : Instant} {db : Db} :
    (tracking tokens original current).changes savedAt db =
      db.updateSession savedAt original current >>= fun db =>
        tokens.foldlM (ChangeTracker.saveToken savedAt) db := by
  simp only [tracking, ChangeTracker.changes, ChangeTracker.saveSession, List.foldlM_cons,
    List.foldlM_nil, bind_pure]

/-- The tokens and the original session that are tracked after failed replays. A failed commit has
accepted the changes of its run. -/
def afterFaults (session : Session) :
    List (Tracked RefreshToken) → Session → List Event →
      List (Tracked RefreshToken) × Session
  | tokens, original, [] => (tokens, original)
  | tokens, _, .commitFailed now :: rest =>
      afterFaults session (tokens.map Tracked.accepted) (revokeForReuse session now) rest
  | tokens, original, _ :: rest => afterFaults session tokens original rest

/-- What the commit of a replay changes after `failed` runs. -/
def retriedChanges (session : Session) (tokens : List (Tracked RefreshToken)) (original : Session)
    (failed : List Event) (now savedAt : Instant) (db : Db) : Except AppException Db :=
  let kept := afterFaults session tokens original failed
  (tracking kept.1 kept.2 (revokeForReuse session now)).changes savedAt db

/-- How replays that start from `start` with up to `retries` further runs can end. Clock readings
satisfy `reading`, which may depend on the events so far. -/
inductive ReplayEnds (http : HttpContext) (reading : List Event → Instant → Prop) (start : State)
    (session : Session) (tokens : List (Tracked RefreshToken)) (original : Session)
    (retries : ℕ) (failed : List Event) : Except AppException RefreshResult → State → Prop
  | gaveUp (final : State) (count : failed.length = retries + 1)
      (events : final.events = start.events ++ failed)
      (db : final.store.db = start.store.db) :
      ReplayEnds http reading start session tokens original retries failed
        (.error .retryLimitExceeded) final
  | revoked (final : State) (now savedAt loggedAt : Instant) (db : Db)
      (count : failed.length ≤ retries)
      (readNow : reading (start.events ++ failed) now)
      (readLog : reading (start.events ++ failed ++ [.reuseCommitted now]) loggedAt)
      (changes : retriedChanges session tokens original failed now savedAt start.store.db = .ok db)
      (events : final.events = start.events ++ failed ++ [.reuseCommitted now])
      (store : final.store.db = AuditLogger.record (AuditLogger.entry http .tokenReuseDetected
        (some session.userId) start.store.supply loggedAt) db) :
      ReplayEnds http reading start session tokens original retries failed
        (.ok (.failure .reuseDetected (some session.id))) final
  | refused (final : State) (now savedAt : Instant) (exception : AppException)
      (changes : retriedChanges session tokens original failed now savedAt start.store.db =
        .error exception) :
      ReplayEnds http reading start session tokens original retries failed (.error exception) final

section Replays

variable {services : Services} {http : HttpContext} {call : ℕ}
variable {admits : State → ℕ → Input → List Event → Prop}
variable {reading : List Event → Instant → Prop} {mayFail : Prop}
variable {hash : String} {stored : RefreshToken} {session : Session}

/-- One run of the delegate on a token that the tracker shows as used. -/
theorem alone_attempt_replayed
    (reads : ∀ state input events, admits state call input events →
      reading state.events input.now)
    {state : State} {tracker : ChangeTracker} {tokens : List (Tracked RefreshToken)}
    {original current sessionRow : Session}
    (found : presented hash state.store.db = [(stored, sessionRow)])
    (resolved : tracker.resolve stored sessionRow = tracking tokens original current)
    (sameId : current.id = sessionRow.id)
    (used : (Tracked.instanceOf RefreshToken.id stored tokens).usedAt ≠ none)
    {post : Except AppException (Attempt ChangeTracker RefreshResult) → State → Prop}
    (saveFailed : ∀ now failed, (∃ input, input.transient = true ∧ ∃ before events,
        admits before call input events) →
      failed.store = state.store → failed.events = state.events ++ [.saveFailed] →
      post (.ok (.failed (tracking tokens original (revokeForReuse current now)))) failed)
    (commitFailed : ∀ now failed, (∃ input, input.transient = true ∧ ∃ before events,
        admits before call input events) →
      failed.store = state.store → failed.events = state.events ++ [.commitFailed now] →
      post (.ok (.failed (tracking (tokens.map Tracked.accepted) (revokeForReuse current now)
        (revokeForReuse current now)))) failed)
    (committed : ∀ now savedAt loggedAt db final, reading state.events now →
      reading (state.events ++ [.reuseCommitted now]) loggedAt →
      (tracking tokens original (revokeForReuse current now)).changes savedAt state.store.db =
        .ok db →
      final.events = state.events ++ [.reuseCommitted now] →
      final.store.db = AuditLogger.record (AuditLogger.entry http .tokenReuseDetected
        (some current.userId) state.store.supply loggedAt) db →
      post (.ok (.completed (.failure .reuseDetected (some current.id)))) final)
    (refused : ∀ now savedAt exception final,
      (tracking tokens original (revokeForReuse current now)).changes savedAt state.store.db =
        .error exception → post (.error exception) final) :
    (attempt services http hash tracker).wp (.alone admits fun _ _ => True) call post state := by
  have tracked :
      Tracked.instanceOf Session.id sessionRow (tracking tokens original current).sessions =
      current := by
    simp [tracking, Tracked.instanceOf, sameId]
  have assigned : ∀ now, (tracking tokens original current).assignSession
      (revokeForReuse current now) = tracking tokens original (revokeForReuse current now) := by
    intro now
    simp [tracking, ChangeTracker.assignSession, Tracked.assign, revokeForReuse]
  have isUsed : (Tracked.instanceOf RefreshToken.id stored
      (tracking tokens original current).refreshTokens).usedAt.isSome = true :=
    Option.isSome_iff_ne_none.mpr used
  simp only [attempt, Program.wp_bind]
  refine alone_queryOrThrow ?_
  intro _ _
  simp only [found, Action.singleOrDefault, Program.andThen_ok, Program.wp_bind]
  refine alone_utcNow ?_
  intro readInput readAdmitted
  have readNow := reads _ _ _ readAdmitted
  simp only [Program.andThen_ok, resolved, tracked, judge, isUsed, if_true, revokeReplayed,
    saveAndCommit, Program.wp_bind]
  rw [← revokeForReuse, assigned]
  refine alone_stageChanges ?_ ?_
  · intro input transient admitted
    exact saveFailed readInput.now _ ⟨input, transient, _, _, admitted⟩ rfl (by simp)
  intro savedInput _
  simp only [Program.andThen_ok, Program.wp_bind]
  refine alone_commit ?_ ?_ ?_
  · intro input transient admitted
    refine commitFailed readInput.now _ ⟨input, transient, _, _, admitted⟩ rfl (by simp)
  · intro input db changes admitted
    simp only [Program.andThen_ok, if_true, Program.wp_bind]
    refine AuditLogger.alone_logAsync ?_
    intro _ logged _ logAdmitted
    have readLog := reads _ _ _ logAdmitted
    simp only [Shared.events, Shared.drew_journal] at readLog readNow
    refine committed readInput.now savedInput.now logged.now db _ readNow ?_ changes ?_ rfl
    · simpa [Shared.events] using readLog
    · simp [Shared.events]
  · intro input exception changes
    exact refused readInput.now savedInput.now exception _ changes

theorem instanceOf_accepted {ρ : Type} (key : ρ → Guid) (row : ρ) (entries : List (Tracked ρ)) :
    Tracked.instanceOf key row (entries.map Tracked.accepted) =
      Tracked.instanceOf key row entries := by
  have found : (entries.map Tracked.accepted).find? (key ·.current = key row) =
      (entries.find? (key ·.current = key row)).map Tracked.accepted := by
    rw [List.find?_map]
    rfl
  unfold Tracked.instanceOf
  rw [found]
  cases entries.find? (key ·.current = key row) <;> rfl

theorem resolve_tracking {tokens : List (Tracked RefreshToken)}
    {original current sessionRow : Session}
    (known : tokens.any (·.current.id = stored.id) = true) (sameId : current.id = sessionRow.id) :
    (tracking tokens original current).resolve stored sessionRow =
      tracking tokens original current := by
  simp [tracking, ChangeTracker.resolve, Tracked.resolve, known, sameId]

/-- A failed run before replays that end. -/
theorem ReplayEnds.cons {start failed final : State} {original kept : Session}
    {tokens keptTokens : List (Tracked RefreshToken)} {retries : ℕ} {fault : Event}
    {rest : List Event} {outcome : Except AppException RefreshResult}
    (store : failed.store = start.store) (events : failed.events = start.events ++ [fault])
    (after : afterFaults session tokens original (fault :: rest) =
      afterFaults session keptTokens kept rest)
    (ends : ReplayEnds http reading failed session keptTokens kept retries rest outcome final) :
    ReplayEnds http reading start session tokens original (retries + 1) (fault :: rest) outcome
      final := by
  have joined : failed.events ++ rest = start.events ++ fault :: rest := by simp [events]
  cases ends with
  | gaveUp _ count reported db =>
      exact .gaveUp _ (by simp [count]) (by rw [reported, joined]) (by rw [db, store])
  | revoked _ now savedAt loggedAt db count readNow readLog changes reported written =>
      rw [joined] at readNow readLog reported
      rw [store] at changes written
      rw [retriedChanges, ← after] at changes
      exact .revoked _ now savedAt loggedAt db (Nat.succ_le_succ count) readNow readLog changes
        reported written
  | refused _ now savedAt exception changes =>
      rw [store] at changes
      rw [retriedChanges, ← after] at changes
      exact .refused _ now savedAt exception changes

variable (reading mayFail) in
/-- Replays end as `ReplayEnds` says, whatever fails. The induction is on the runs left; what is
assigned to the session in one run is overwritten in the next. -/
theorem alone_replays
    (reads : ∀ state input events, admits state call input events →
      reading state.events input.now)
    (fails : ∀ state input events, admits state call input events → input.transient = true →
      mayFail)
    {sessionRow : Session} (sameId : session.id = sessionRow.id) (retries : ℕ) {state : State}
    {tracker : ChangeTracker} {tokens : List (Tracked RefreshToken)} {original current : Session}
    (found : presented hash state.store.db = [(stored, sessionRow)])
    (resolved : tracker.resolve stored sessionRow = tracking tokens original current)
    (known : tokens.any (·.current.id = stored.id) = true)
    (used : (Tracked.instanceOf RefreshToken.id stored tokens).usedAt ≠ none)
    (overwrites : ∀ now, revokeForReuse current now = revokeForReuse session now) :
    (Action.executionStrategy (attempt services http hash) retries tracker).wp
      (.alone admits fun _ _ => True) call
      (fun outcome final => ∃ failed, (∀ event ∈ failed, event.isFault = true) ∧
        (failed ≠ [] → mayFail) ∧
        ReplayEnds http reading state session tokens original retries failed outcome final)
      state := by
  induction retries generalizing state tracker tokens original current with
  | zero =>
      have currentId : current.id = session.id := by
        have ids := congrArg Session.id (overwrites 0)
        exact ids
      have currentUser : current.userId = session.userId := by
        have users := congrArg Session.userId (overwrites 0)
        exact users
      simp only [Action.executionStrategy, Program.wp_bind]
      refine alone_attempt_replayed reads found resolved (currentId.trans sameId) used ?_ ?_ ?_ ?_
      · rintro now failed ⟨input, transient, before, events, admitted⟩ store reported
        exact ⟨[.saveFailed], by simp [Event.isFault], fun _ => fails _ _ _ admitted transient,
          .gaveUp _ rfl reported (by rw [store])⟩
      · rintro now failed ⟨input, transient, before, events, admitted⟩ store reported
        exact ⟨[.commitFailed now], by simp [Event.isFault],
          fun _ => fails _ _ _ admitted transient, .gaveUp _ rfl reported (by rw [store])⟩
      · intro now savedAt loggedAt db final readNow readLog changes reported written
        rw [overwrites] at changes
        rw [currentId]
        rw [currentUser] at written
        exact ⟨[], by simp, by simp, .revoked _ now savedAt loggedAt db (by simp)
          (by simpa using readNow) (by simpa using readLog) changes
            (by simpa using reported) written⟩
      · intro now savedAt exception final changes
        rw [overwrites] at changes
        exact ⟨[], by simp, by simp, .refused _ now savedAt exception changes⟩
  | succ retries inductionHypothesis =>
      have currentId : current.id = session.id := by
        have ids := congrArg Session.id (overwrites 0)
        exact ids
      have currentUser : current.userId = session.userId := by
        have users := congrArg Session.userId (overwrites 0)
        exact users
      simp only [Action.executionStrategy, Program.wp_bind]
      refine alone_attempt_replayed reads found resolved (currentId.trans sameId) used ?_ ?_ ?_ ?_
      · rintro now failed ⟨input, transient, before, events, admitted⟩ store reported
        refine Program.wp_mono (inductionHypothesis (by rw [store]; exact found)
          (resolve_tracking known (currentId.trans sameId)) known used
          (fun later => overwrites later)) ?_
        rintro outcome final ⟨rest, faulty, -, ends⟩
        exact ⟨.saveFailed :: rest, by simpa [Event.isFault] using faulty,
          fun _ => fails _ _ _ admitted transient, ends.cons store reported rfl⟩
      · rintro now failed ⟨input, transient, before, events, admitted⟩ store reported
        have knownAccepted :
            (tokens.map Tracked.accepted).any (·.current.id = stored.id) = true := by
          rw [List.any_map]
          exact known
        rw [overwrites]
        refine Program.wp_mono (inductionHypothesis (by rw [store]; exact found)
          (resolve_tracking knownAccepted sameId) knownAccepted
          (by rw [instanceOf_accepted]; exact used) (fun _ => rfl)) ?_
        rintro outcome final ⟨rest, faulty, -, ends⟩
        exact ⟨.commitFailed now :: rest, by simpa [Event.isFault] using faulty,
          fun _ => fails _ _ _ admitted transient, ends.cons store reported rfl⟩
      · intro now savedAt loggedAt db final readNow readLog changes reported written
        rw [overwrites] at changes
        rw [currentId]
        rw [currentUser] at written
        exact ⟨[], by simp, by simp, .revoked _ now savedAt loggedAt db (by simp)
          (by simpa using readNow) (by simpa using readLog) changes
            (by simpa using reported) written⟩
      · intro now savedAt exception final changes
        rw [overwrites] at changes
        exact ⟨[], by simp, by simp, .refused _ now savedAt exception changes⟩

end Replays

/-! ### A token that was spent before the call -/

/-- The clock reading of the last run whose commit failed. -/
def lastFailedCommit : List Event → Option Instant
  | [] => none
  | .commitFailed attemptedAt :: rest => some ((lastFailedCommit rest).getD attemptedAt)
  | _ :: rest => lastFailedCommit rest

/-- The session as the context believes it stored, after failed replays. -/
def believed (session : Session) (failed : List Event) : Session :=
  match lastFailedCommit failed with
  | none => session
  | some now => revokeForReuse session now

section Spent

variable {stored : RefreshToken} {session : Session}

theorem afterFaults_spent (original : Session) (failed : List Event) :
    afterFaults session [⟨.unchanged, stored, stored⟩] original failed =
      ([⟨.unchanged, stored, stored⟩],
        match lastFailedCommit failed with
        | none => original
        | some now => revokeForReuse session now) := by
  induction failed generalizing original with
  | nil => rfl
  | cons fault rest inductionHypothesis =>
      cases fault with
      | commitFailed now =>
          simp only [afterFaults, List.map_cons, List.map_nil, Tracked.accepted,
            inductionHypothesis, lastFailedCommit]
          cases lastFailedCommit rest <;> rfl
      | _ => exact inductionHypothesis original

/-- A replay sends what differs from what the context believes stored. -/
theorem retriedChanges_spent {failed : List Event} {now savedAt : Instant} {db : Db} :
    retriedChanges session [⟨.unchanged, stored, stored⟩] session failed now savedAt db =
      db.updateSession savedAt (believed session failed) (revokeForReuse session now) := by
  rw [retriedChanges, afterFaults_spent, tracking_changes]
  simp only [ChangeTracker.saveToken, List.foldlM_cons, List.foldlM_nil, bind_pure,
    Db.updateRefreshToken, if_true]
  exact bind_pure _

end Spent

/-! ### A token that is spent by the call -/

/-- Fresh values are fresh: no stored refresh token has an id or a hash that is yet to be drawn. -/
structure FreshDraws (services : Services) (world : World) : Prop where
  ids : ∀ row ∈ world.db.refreshTokens, ∀ number, world.supply ≤ number → row.id ≠ number
  hashes : ∀ row ∈ world.db.refreshTokens, ∀ number, world.supply ≤ number →
    row.tokenHash ≠
      services.tokenGenerator.hash (services.tokenGenerator.newOpaqueToken number)

section Unspent

variable {stored successor : RefreshToken} {session : Session} {now : Instant}

/-- The tokens tracked by a rotation that has not been saved. -/
def rotatingTokens (stored successor : RefreshToken) (now : Instant) :
    List (Tracked RefreshToken) :=
  [⟨.unchanged, stored, spend stored now successor.id⟩, ⟨.added, successor, successor⟩]

theorem rotating_eq :
    rotating (ChangeTracker.resolve {} stored session) stored successor session now =
      tracking (rotatingTokens stored successor now) session (slide session now) := by
  simp [rotating, tracking, rotatingTokens, ChangeTracker.resolve, ChangeTracker.assignToken,
    ChangeTracker.addToken, ChangeTracker.assignSession, Tracked.resolve, Tracked.assign, spend,
    slide]

theorem rotatingTokens_known :
    (rotatingTokens stored successor now).any (·.current.id = stored.id) = true := by
  simp [rotatingTokens, spend]

theorem rotatingTokens_used :
    (Tracked.instanceOf RefreshToken.id stored (rotatingTokens stored successor now)).usedAt ≠
      none := by
  simp [rotatingTokens, spend, Tracked.instanceOf]

/-- Failed replays leave the tokens tracked as they are, but for accepting them. -/
theorem afterFaults_cases (tokens : List (Tracked RefreshToken)) (original : Session)
    (failed : List Event) (sameId : original.id = session.id) :
    ((afterFaults session tokens original failed).1 = tokens ∨
      (afterFaults session tokens original failed).1 = tokens.map Tracked.accepted) ∧
      (afterFaults session tokens original failed).2.id = session.id := by
  induction failed generalizing tokens original with
  | nil => exact ⟨.inl rfl, sameId⟩
  | cons fault rest inductionHypothesis =>
      cases fault with
      | commitFailed attemptedAt =>
          obtain ⟨cases, id⟩ := inductionHypothesis (tokens.map Tracked.accepted)
            (revokeForReuse session attemptedAt) rfl
          refine ⟨.inr ?_, id⟩
          rcases cases with same | twice
          · exact same
          · refine Eq.trans twice ?_
            simp [List.map_map, Function.comp_def, Tracked.accepted]
      | _ => exact inductionHypothesis tokens original sameId

theorem fresh_of_map {ρ κ : Type} {key : ρ → κ} {before after : List ρ} {value : κ}
    (same : after.map key = before.map key) (fresh : ∀ row ∈ before, key row ≠ value) :
    ∀ row ∈ after, key row ≠ value := by
  intro row member equal
  have column := List.mem_map_of_mem (f := key) member
  rw [same] at column
  obtain ⟨other, otherMember, otherKey⟩ := List.mem_map.mp column
  exact fresh other otherMember (otherKey.trans equal)

/-- On the database that the rotation started from, its retries save. -/
theorem retriedChanges_rotating {db : Db} {tokens : List (Tracked RefreshToken)}
    {original : Session} {failed : List Event} {later savedAt : Instant}
    (tracked : tokens = rotatingTokens stored successor now ∨
      tokens = (rotatingTokens stored successor now).map Tracked.accepted)
    (originalId : original.id = session.id)
    (member : stored ∈ db.refreshTokens) (sessionMember : ∃ row ∈ db.sessions, row.id = session.id)
    (owner : successor.sessionId = session.id)
    (freshId : ∀ row ∈ db.refreshTokens, row.id ≠ successor.id)
    (freshHash : ∀ row ∈ db.refreshTokens, row.tokenHash ≠ successor.tokenHash)
    {exception : AppException} :
    retriedChanges session tokens original failed later savedAt db ≠ .error exception := by
  obtain ⟨keptTokens, keptId⟩ := afterFaults_cases tokens original failed originalId
  let kept := (afterFaults session tokens original failed).2
  have sessionSaves : ∃ sessions,
      db.updateSession savedAt kept (revokeForReuse session later) = .ok { db with sessions } ∧
        sessions.map Session.id = db.sessions.map Session.id := by
    refine Db.updateSession_succeeds ?_
    obtain ⟨row, rowMember, rowId⟩ := sessionMember
    exact ⟨row, rowMember, rowId.trans keptId.symm⟩
  obtain ⟨sessions, sessionSaved, ids⟩ := sessionSaves
  have owned : ∃ row ∈ sessions, row.id = successor.sessionId := by
    obtain ⟨row, rowMember, rowId⟩ := sessionMember
    have column := List.mem_map_of_mem (f := Session.id) rowMember
    rw [← ids] at column
    obtain ⟨other, otherMember, otherId⟩ := List.mem_map.mp column
    exact ⟨other, otherMember, otherId.trans (rowId.trans owner.symm)⟩
  have tokenSaves : ∃ refreshTokens,
      { db with sessions }.updateRefreshToken savedAt stored (spend stored now successor.id) =
          .ok { db with sessions, refreshTokens } ∧
        refreshTokens.map RefreshToken.id = db.refreshTokens.map RefreshToken.id ∧
        refreshTokens.map RefreshToken.tokenHash = db.refreshTokens.map RefreshToken.tokenHash :=
    Db.updateRefreshToken_succeeds ⟨stored, member, rfl⟩ rfl
  obtain ⟨refreshTokens, tokenSaved, tokenIds, tokenHashes⟩ := tokenSaves
  have inserts : ∃ after,
      { db with sessions, refreshTokens }.insertRefreshToken savedAt successor = .ok after :=
    ⟨_, Db.insertRefreshToken_eq_ok.mpr ⟨⟨fresh_of_map tokenIds freshId,
      fresh_of_map tokenHashes freshHash, owned⟩, rfl⟩⟩
  obtain ⟨after, inserted⟩ := inserts
  have pending : (rotatingTokens stored successor now).foldlM (ChangeTracker.saveToken savedAt)
      { db with sessions } = .ok after := by
    simp only [rotatingTokens, List.foldlM_cons, List.foldlM_nil, ChangeTracker.saveToken,
      bind_pure, tokenSaved]
    exact inserted
  have accepted : ((rotatingTokens stored successor now).map Tracked.accepted).foldlM
      (ChangeTracker.saveToken savedAt) { db with sessions } = .ok { db with sessions } := by
    simp only [rotatingTokens, List.map_cons, List.map_nil, Tracked.accepted, List.foldlM_cons,
      List.foldlM_nil, ChangeTracker.saveToken, Db.updateRefreshToken, if_true, bind_pure]
    rfl
  have twice : ((rotatingTokens stored successor now).map Tracked.accepted).map Tracked.accepted =
      (rotatingTokens stored successor now).map Tracked.accepted := rfl
  have cases :
      (afterFaults session tokens original failed).1 = rotatingTokens stored successor now ∨
      (afterFaults session tokens original failed).1 =
        (rotatingTokens stored successor now).map Tracked.accepted := by
    rcases tracked with rfl | rfl
    · exact keptTokens
    · rw [twice] at keptTokens
      exact .inr (keptTokens.elim id id)
  rw [retriedChanges, tracking_changes, sessionSaved]
  rcases cases with same | same <;> rw [same]
  · rw [show ((.ok { db with sessions } : Except AppException Db) >>= _) = _ from pending]
    rintro ⟨⟩
  · rw [show ((.ok { db with sessions } : Except AppException Db) >>= _) = _ from accepted]
    rintro ⟨⟩

end Unspent

end RefreshTokenService

end AuthStartpack
