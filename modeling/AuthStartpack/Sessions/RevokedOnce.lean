import AuthStartpack.Services.Frames
import AuthStartpack.Services.Mfa.TotpService
import AuthStartpack.Services.Users.AdminUserService
import AuthStartpack.Sessions.Finality
import Mathlib.Data.List.Induction
import Mathlib.Data.List.Infix

/-!
Owns the columns that record a revocation. Every bulk statement revokes live
sessions alone, and a rotation writes neither column. The one save that may
write them a second time is that of a replay: it goes by primary key, whether
the session is revoked or not.
-/

namespace AuthStartpack

/-- When a session was revoked, and why. -/
def Session.revocation (session : Session) : Option Instant × Option SessionRevocationReason :=
  (session.revokedAt, session.revocationReason)

/-- A revoked session keeps when and why it was revoked for as long as it is stored. -/
def RevocationsStay (before after : List Session) : Prop :=
  Table.Keyed Session.id before → Table.Keyed Session.id after ∧
    ∀ old ∈ before, old.revokedAt ≠ none → ∀ later ∈ after, later.id = old.id →
      later.revocation = old.revocation

/-- The sessions are rewritten one by one, and revoked ones keep their revocation. -/
def Rewrites (before after : List Session) : Prop :=
  ∃ write, after = before.map write ∧ ∀ row ∈ before, (write row).id = row.id ∧
    (row.revokedAt ≠ none → (write row).revocation = row.revocation)

theorem Rewrites.refl (sessions : List Session) : Rewrites sessions sessions :=
  ⟨id, (List.map_id _).symm, fun _ _ => ⟨rfl, fun _ => rfl⟩⟩

theorem Rewrites.stay {before after : List Session} (rewrites : Rewrites before after) :
    RevocationsStay before after := by
  obtain ⟨write, rfl, keeps⟩ := rewrites
  intro keyed
  constructor
  · unfold Table.Keyed
    rw [Table.map_rewrite fun row member => (keeps row member).1]
    exact keyed
  · intro old oldMember revoked later laterMember same
    obtain ⟨row, member, rfl⟩ := List.mem_map.mp laterMember
    obtain ⟨sameId, kept⟩ := keeps row member
    obtain rfl := keyed.eq_of_key member oldMember (sameId.symm.trans same)
    exact kept revoked

theorem Rewrites.updateWhere {pred : Session → Bool} {write : Session → Session}
    {sessions : List Session} (keepsId : ∀ row, (write row).id = row.id)
    (keeps : ∀ row ∈ sessions, pred row = true → row.revokedAt ≠ none →
      (write row).revocation = row.revocation) :
    Rewrites sessions (Table.updateWhere pred write sessions) := by
  refine ⟨_, rfl, ?_⟩
  intro row member
  split
  case isTrue hit => exact ⟨keepsId row, keeps row member hit⟩
  case isFalse => exact ⟨rfl, fun _ => rfl⟩

namespace RevocationsStay

theorem refl (sessions : List Session) : RevocationsStay sessions sessions :=
  (Rewrites.refl sessions).stay

theorem deleteWhere (pred : Session → Bool) (sessions : List Session) :
    RevocationsStay sessions (Table.deleteWhere pred sessions) := by
  intro keyed
  refine ⟨keyed.deleteWhere, ?_⟩
  intro old oldMember _ later laterMember same
  rw [keyed.eq_of_key (Table.mem_deleteWhere.mp laterMember).1 oldMember same]

theorem append {sessions : List Session} {row : Session}
    (fresh : ∀ other ∈ sessions, other.id ≠ row.id) :
    RevocationsStay sessions (sessions ++ [row]) := by
  intro keyed
  refine ⟨keyed.append fresh, ?_⟩
  intro old oldMember _ later laterMember same
  rcases List.mem_append.mp laterMember with stored | added
  · rw [keyed.eq_of_key stored oldMember same]
  · rw [List.mem_singleton.mp added] at same
    exact absurd same.symm (fresh old oldMember)

end RevocationsStay

/-! ### Single steps -/

def Event.commitsReuse : Event → Bool
  | .reuseCommitted _ => true
  | _ => false

/-- The step of a call that revokes the session of a replayed token finds that session live. A hash
is the hash of one token, which `identity` names with its session. -/
structure RevokesLive (services : Services) (token? : ℕ → Option String)
    (identity : String → Guid × Guid) (state : State) (call : ℕ) (_input : Input)
    (events : List Event) :
    Prop where
  identified : ∀ token ∈ state.store.db.refreshTokens,
    identity token.tokenHash = (token.id, token.sessionId)
  live : events.any Event.commitsReuse = true → ∀ token ∈ token? call,
    ∀ session ∈ state.store.db.sessions,
      session.id = (identity (services.tokenGenerator.hash token)).2 → session.revokedAt = none

instance (services : Services) (token? : ℕ → Option String) (identity : String → Guid × Guid)
    (state : State) (call : ℕ) (input : Input) (events : List Event) :
    Decidable (RevokesLive services token? identity state call input events) :=
  decidable_of_iff
    ((∀ token ∈ state.store.db.refreshTokens,
      identity token.tokenHash = (token.id, token.sessionId)) ∧
      (events.any Event.commitsReuse = true → ∀ token ∈ token? call,
        ∀ session ∈ state.store.db.sessions,
          session.id = (identity (services.tokenGenerator.hash token)).2 →
            session.revokedAt = none))
    ⟨fun both => ⟨both.1, both.2⟩, fun revokes => ⟨revokes.identified, revokes.live⟩⟩

/-- Each step keeps the revocations. -/
abbrev Law.revokedOnce (services : Services) (token? : ℕ → Option String)
    (identity : String → Guid × Guid) : Law Input World Event :=
  .stepwise (RevokesLive services token? identity)
    fun before after => RevocationsStay before.store.db.sessions after.store.db.sessions

section

variable {services : Services} {token? : ℕ → Option String} {identity : String → Guid × Guid}

instance : Frames (.revokedOnce services token? identity) (fun _ _ => True) Db.sessions
    fun _ => False where
  calm call :=
    { refl := fun _ => trivial
      trans := fun _ _ _ _ _ => trivial
      rely := fun _ _ _ => trivial
      quiet := by
        intro state input world _ step
        obtain ⟨auditLogEntries, equal⟩ := step.db
        refine ⟨?_, trivial⟩
        change RevocationsStay state.store.db.sessions world.db.sessions
        rw [equal]
        exact .refl _ }
  frame call state input world events _ same _ _ := by
    refine ⟨?_, trivial⟩
    change RevocationsStay state.store.db.sessions world.db.sessions
    rw [same]
    exact .refl _

/-- Every step of the program keeps the revocations. -/
abbrev RevokesOnce (services : Services) (token? : ℕ → Option String)
    (identity : String → Guid × Guid) {α : Type} (program : Action α) : Prop :=
  Keeps (.revokedOnce services token? identity) (fun _ _ => True) program

namespace RevokesOnce

/-- A bulk update of sessions. -/
theorem updateSessions {pred : Session → Bool} {write : Session → Session}
    (keepsId : ∀ row, (write row).id = row.id)
    (keeps : ∀ row, pred row = true → row.revokedAt ≠ none →
      (write row).revocation = row.revocation) :
    RevokesOnce services token? identity (SessionService.updateSessions pred write) :=
  Keeps.execute fun _ _ _ _ _ _ =>
    ⟨(Rewrites.updateWhere keepsId fun row _ => keeps row).stay, trivial⟩

theorem saveChanges {changes : Instant → Db → Except AppException Db}
    (keeps : ∀ now db after, changes now db = .ok after →
      RevocationsStay db.sessions after.sessions) :
    RevokesOnce services token? identity (Action.saveChanges changes) :=
  Keeps.saveChanges fun _ _ current input db _ saved _ =>
    ⟨keeps input.now current.store.db db saved, trivial⟩

/-- A statement on other tables. -/
theorem elsewhere {count : Db → ℕ} {write : Db → Db} {events : Db → List Event}
    (same : ∀ db, (write db).sessions = db.sessions) :
    RevokesOnce services token? identity (Action.execute count write events) :=
  .frame_execute same fun _ _ _ => not_false

end RevokesOnce

/-! ### Rotations -/

/-- The tracked session of a call whose token belongs to it. -/
structure TracksSession (sessionId : Guid) (entry : Tracked Session) : Prop where
  stored : entry.state = .unchanged
  original : entry.original.id = sessionId
  current : entry.current.id = sessionId

/-- The instance that stands for the token with this id is spent. -/
def TracksSpent (tokenId : Guid) (entries : List (Tracked RefreshToken)) : Prop :=
  ∃ entry, entries.find? (RefreshToken.id ·.current = tokenId) = some entry ∧
    entry.current.usedAt.isSome = true

/-- What the attempts of a call keep of their tracker: its save writes a revocation only if every
further attempt takes the branch of a replay. -/
structure TracksOne (tokenId sessionId : Guid) (tracker : ChangeTracker) : Prop where
  session : tracker.sessions = [] ∨
    ∃ entry, tracker.sessions = [entry] ∧ TracksSession sessionId entry
  replays : (∀ entry ∈ tracker.sessions, entry.current.revocation = entry.original.revocation) ∨
    TracksSpent tokenId tracker.refreshTokens

namespace TracksSpent

variable {tokenId : Guid} {entries : List (Tracked RefreshToken)}

theorem append (spent : TracksSpent tokenId entries) (more : List (Tracked RefreshToken)) :
    TracksSpent tokenId (entries ++ more) := by
  obtain ⟨entry, found, used⟩ := spent
  refine ⟨entry, ?_, used⟩
  rw [List.find?_append, found]
  rfl

theorem resolve (spent : TracksSpent tokenId entries) (row : RefreshToken) :
    TracksSpent tokenId (Tracked.resolve RefreshToken.id row entries) := by
  unfold Tracked.resolve
  split
  · exact spent
  · exact spent.append _

theorem instanceOf (spent : TracksSpent tokenId entries) {row : RefreshToken}
    (same : row.id = tokenId) :
    (Tracked.instanceOf RefreshToken.id row entries).usedAt.isSome = true := by
  obtain ⟨entry, found, used⟩ := spent
  unfold Tracked.instanceOf
  rw [same, found]
  exact used

theorem of_instanceOf {row : RefreshToken}
    (used : (Tracked.instanceOf RefreshToken.id row
      (Tracked.resolve RefreshToken.id row entries)).usedAt.isSome = true)
    (same : row.id = tokenId) :
    TracksSpent tokenId (Tracked.resolve RefreshToken.id row entries) := by
  obtain ⟨entry, member, current⟩ : ∃ entry ∈ Tracked.resolve RefreshToken.id row entries,
      entry.current = _ := Tracked.tracked_instanceOf
  have present : ((Tracked.resolve RefreshToken.id row entries).find?
      (RefreshToken.id ·.current = tokenId)).isSome := by
    rw [List.find?_isSome]
    refine ⟨entry, member, ?_⟩
    rw [current]
    exact decide_eq_true (Tracked.key_instanceOf.trans same)
  obtain ⟨first, found⟩ := Option.isSome_iff_exists.mp present
  refine ⟨first, found, ?_⟩
  unfold Tracked.instanceOf at used
  rw [same, found] at used
  exact used

/-- Marking the tracked instance as used. -/
theorem assign {row : RefreshToken} (used : row.usedAt.isSome = true) (same : row.id = tokenId)
    (present : ∃ entry ∈ entries, entry.current.id = tokenId) :
    TracksSpent tokenId (Tracked.assign RefreshToken.id row entries) := by
  induction entries with
  | nil =>
      obtain ⟨entry, member, -⟩ := present
      cases member
  | cons head tail inductionHypothesis =>
      by_cases hit : head.current.id = tokenId
      · refine ⟨{ head with current := row }, ?_, used⟩
        simp [Tracked.assign, hit, same]
      · have inTail : ∃ entry ∈ tail, entry.current.id = tokenId := by
          obtain ⟨entry, member, isToken⟩ := present
          rcases List.mem_cons.mp member with rfl | inTail
          · exact absurd isToken hit
          · exact ⟨entry, inTail, isToken⟩
        obtain ⟨entry, found, isUsed⟩ := inductionHypothesis inTail
        refine ⟨entry, ?_, isUsed⟩
        simp only [Tracked.assign, List.map_cons] at found ⊢
        rw [List.find?_cons_of_neg (by simp [hit, same])]
        exact found

end TracksSpent

namespace TracksOne

variable {tokenId sessionId : Guid} {tracker : ChangeTracker}

theorem empty : TracksOne tokenId sessionId {} := ⟨.inl rfl, .inl fun _ member => nomatch member⟩

/-- The instances of the rows that a query found. -/
theorem resolve (tracks : TracksOne tokenId sessionId tracker) (token : RefreshToken)
    {session : Session}
    (same : session.id = sessionId) :
    TracksOne tokenId sessionId (tracker.resolve token session) ∧
      ∃ entry, (tracker.resolve token session).sessions = [entry] ∧ TracksSession sessionId entry ∧
        Tracked.instanceOf Session.id session (tracker.resolve token session).sessions =
          entry.current := by
  rcases tracks.session with none | ⟨entry, one, tracked⟩
  · have sessions :
        (tracker.resolve token session).sessions = [⟨.unchanged, session, session⟩] := by
      simp [ChangeTracker.resolve, Tracked.resolve, none]
    have tracked : TracksSession sessionId ⟨.unchanged, session, session⟩ := ⟨rfl, same, same⟩
    refine ⟨⟨.inr ⟨_, sessions, tracked⟩, .inl ?_⟩, _, sessions, tracked, ?_⟩
    · intro entry member
      rw [sessions, List.mem_singleton] at member
      rw [member]
    · simp [Tracked.instanceOf, sessions]
  · have sessions : (tracker.resolve token session).sessions = [entry] := by
      simp [ChangeTracker.resolve, Tracked.resolve, one, tracked.current, same]
    refine ⟨⟨.inr ⟨entry, sessions, tracked⟩, ?_⟩, entry, sessions, tracked, ?_⟩
    · rw [sessions, ← one]
      exact tracks.replays.imp_right fun spent => spent.resolve token
    · simp [Tracked.instanceOf, sessions, tracked.current, same]

/-- Assigning to the tracked session. -/
theorem assignSession {entry : Tracked Session} (one : tracker.sessions = [entry])
    (tracked : TracksSession sessionId entry) {assigned : Session}
    (sameId : assigned.id = entry.current.id)
    (replays : assigned.revocation = entry.original.revocation ∨
      TracksSpent tokenId tracker.refreshTokens) :
    TracksOne tokenId sessionId (tracker.assignSession assigned) := by
  have sessions :
      (tracker.assignSession assigned).sessions = [{ entry with current := assigned }] := by
    simp [ChangeTracker.assignSession, Tracked.assign, one, sameId]
  refine ⟨.inr ⟨_, sessions, tracked.stored, tracked.original, sameId.trans tracked.current⟩, ?_⟩
  refine replays.imp_left ?_
  intro kept other member
  rw [sessions, List.mem_singleton] at member
  rw [member]
  exact kept

theorem acceptAllChanges (tracks : TracksOne tokenId sessionId tracker) :
    TracksOne tokenId sessionId tracker.acceptAllChanges := by
  constructor
  · rcases tracks.session with none | ⟨entry, one, tracked⟩
    · exact .inl (by simp [ChangeTracker.acceptAllChanges, none])
    · refine .inr ⟨entry.accepted, by simp [ChangeTracker.acceptAllChanges, one], ?_⟩
      exact ⟨rfl, tracked.current, tracked.current⟩
  · refine .inl ?_
    intro entry member
    obtain ⟨old, -, rfl⟩ := List.mem_map.mp member
    rfl

/-- The save of refresh tokens leaves the sessions alone. -/
theorem saveToken_sessions {now : Instant} {db after : Db} {entry : Tracked RefreshToken}
    (saved : ChangeTracker.saveToken now db entry = .ok after) : after.sessions = db.sessions := by
  unfold ChangeTracker.saveToken at saved
  split at saved
  · obtain ⟨-, rfl⟩ := Db.insertRefreshToken_eq_ok.mp saved
    rfl
  · obtain ⟨-, rfl⟩ := Db.updateRefreshToken_eq_ok.mp saved
    rfl

/-- A save rewrites no revocation that it does not know, where no revocation is marked or the
session is live. -/
theorem changes_rewrites (tracks : TracksOne tokenId sessionId tracker) {savedAt : Instant}
    {db after : Db}
    (allowed : (∀ entry ∈ tracker.sessions, entry.current.revocation = entry.original.revocation) ∨
      ∀ row ∈ db.sessions, row.id = sessionId → row.revokedAt = none)
    (saved : tracker.changes savedAt db = .ok after) : Rewrites db.sessions after.sessions := by
  obtain ⟨middle, first, rest⟩ := bind_eq_ok.mp saved
  have untouched : after.sessions = middle.sessions := by
    have same : ∀ {first second third : Db}, second.sessions = first.sessions →
        third.sessions = second.sessions → third.sessions = first.sessions :=
      fun early late => late.trans early
    refine @foldlM_relates _ _ _ (fun before after : Db => after.sessions = before.sessions)
      (fun _ => rfl) same _ _ ?_ _ _ rest
    exact fun _ _ _ _ => saveToken_sessions
  rw [untouched]
  rcases tracks.session with none | ⟨entry, one, tracked⟩
  · rw [none] at first
    cases first
    exact .refl _
  · rw [one] at first allowed
    obtain ⟨_, updated, equal⟩ := bind_eq_ok.mp first
    cases equal
    rw [ChangeTracker.saveSession, tracked.stored] at updated
    obtain ⟨-, rfl⟩ := Db.updateSession_eq_ok.mp updated
    refine .updateWhere (fun _ => rfl) ?_
    intro row member hit revoked
    simp only [Bool.and_eq_true, decide_eq_true_eq] at hit
    rcases allowed with unmarked | live
    · have same := unmarked entry List.mem_cons_self
      simp only [Session.revocation, Prod.mk.injEq] at same
      simp [Session.revocation, Session.merge, same.1, same.2]
    · exact absurd (live row member (hit.1.trans tracked.original)) revoked

end TracksOne

namespace RefreshTokenService

variable {http : HttpContext} {call : ℕ} {tokenId sessionId : Guid} {tracker : ChangeTracker}
variable {state : State}

/-- What one run of the delegate may end with. -/
abbrev EndsTracking (tokenId sessionId : Guid) :
    Except AppException (Attempt ChangeTracker RefreshResult) → State → Prop :=
  Action.retrying (fun tracker _ => TracksOne tokenId sessionId tracker) fun _ _ => True

/-- Saving and committing a tracker whose revocation, if it has one, is of a live session. -/
theorem transaction_revokesOnce {now : Instant} {event : Event} {results : RefreshResult → Prop}
    (tracks : TracksOne tokenId sessionId tracker)
    (allowed : ∀ current input, RevokesLive services token? identity current call input [event] →
      (∀ entry ∈ tracker.sessions, entry.current.revocation = entry.original.revocation) ∨
        ∀ row ∈ current.store.db.sessions, row.id = sessionId → row.revokedAt = none) :
    Transaction (.revokedOnce services token? identity) call
      (fun _ _ => True) state tracker now event
      results (EndsTracking tokenId sessionId) where
  saveFailed _ _ _ _ _ := ⟨.refl _, tracks⟩
  commitFailed _ _ _ _ _ := ⟨.refl _, tracks.acceptAllChanges⟩
  committed current input _ _ _ admitted saved :=
    ⟨(tracks.changes_rewrites (allowed current input admitted) saved).stay, fun _ _ _ _ => trivial⟩
  refused _ _ _ _ _ _ _ := trivial

variable {token : String}

theorem judge_revokesOnce {stored : RefreshToken} {entry : Tracked Session} {now : Instant}
    (presents : token? call = some token)
    (named : (identity (services.tokenGenerator.hash token)).2 = sessionId)
    (tracks : TracksOne tokenId sessionId tracker) (one : tracker.sessions = [entry])
    (tracked : TracksSession sessionId entry) (sameId : stored.id = tokenId)
    (present : ∃ entry ∈ tracker.refreshTokens, entry.current.id = tokenId)
    (spent : stored.usedAt.isSome = true ↔ TracksSpent tokenId tracker.refreshTokens) :
    (judge services http tracker stored entry.current now).wp
      (.revokedOnce services token? identity)
      call (EndsTracking tokenId sessionId) state := by
  have calm : Calm (.revokedOnce services token? identity) call fun _ _ => True := inferInstance
  unfold judge
  split
  case isTrue used =>
    refine wp_revokeReplayed calm (transaction_revokesOnce ?_ ?_)
    · exact TracksOne.assignSession one tracked rfl (.inr (spent.mp used))
    · intro current input admitted
      refine .inr ?_
      intro row member same
      exact admitted.live rfl token presents row member (same.trans named.symm)
  case isFalse unused =>
  split
  case isTrue => trivial
  split
  case isTrue => trivial
  split
  case isTrue => trivial
  split
  case isTrue => trivial
  rw [Program.wp_bind]
  refine Action.calm_queryOrThrow calm ?_
  intro stamped _
  cases Action.single ((stamped.store.db.users.filter (·.id = entry.current.userId)).map
      (·.securityStamp)) with
  | error exception => trivial
  | ok currentStamp =>
      rw [Program.andThen_ok]
      split
      case isTrue => trivial
      refine wp_rotate calm ?_ fun _ _ _ _ => trivial
      intro drawn ready successor _ _
      -- The token is not spent, so that no earlier attempt has marked the session.
      have unmarked : entry.current.revocation = entry.original.revocation := by
        rcases tracks.replays with unmarked | isSpent
        · exact unmarked entry (one ▸ List.mem_cons_self)
        · exact absurd (spent.mpr isSpent) unused
      have assigned : TracksSpent tokenId (Tracked.assign RefreshToken.id
          (spend stored now successor.id) tracker.refreshTokens) := .assign rfl sameId present
      have marks : TracksSpent tokenId
          ((tracker.assignToken (spend stored now successor.id)).addToken
            successor).refreshTokens :=
        assigned.append _
      have stillOne : ((tracker.assignToken (spend stored now successor.id)).addToken
          successor).sessions = [entry] := one
      have sameSession : (slide entry.current now).id = entry.current.id := rfl
      refine transaction_revokesOnce
        (TracksOne.assignSession stillOne tracked sameSession (.inr marks)) ?_
      intro current input _
      refine .inl ?_
      intro other member
      rcases Tracked.mem_assign member with ⟨old, different⟩ | ⟨old, oldMember, -, rfl⟩
      · rw [stillOne, List.mem_singleton] at old
        subst old
        exact absurd rfl different
      · rw [stillOne, List.mem_singleton] at oldMember
        subst oldMember
        exact unmarked

theorem attempt_revokesOnce (presents : token? call = some token)
    (named : identity (services.tokenGenerator.hash token) = (tokenId, sessionId))
    (tracks : TracksOne tokenId sessionId tracker) :
    (attempt services http (services.tokenGenerator.hash token) tracker).wp
      (.revokedOnce services token? identity) call (EndsTracking tokenId sessionId) state := by
  have calm : Calm (.revokedOnce services token? identity) call fun _ _ => True := inferInstance
  rw [attempt, Program.wp_bind]
  refine Action.wp_queryOrThrow.mpr ?_
  intro seen _ input admitted
  refine ⟨.refl _, ?_⟩
  cases found : presented (services.tokenGenerator.hash token) seen.store.db with
  | nil => trivial
  | cons head tail =>
      obtain ⟨tokenRow, sessionRow⟩ := head
      cases tail with
      | cons other others => trivial
      | nil =>
          obtain ⟨tokenMember, tokenHash, -, owns⟩ := presented_eq_single found
          have identified := admitted.identified tokenRow tokenMember
          rw [tokenHash, named, Prod.mk.injEq] at identified
          obtain ⟨sameToken, sameSession⟩ := identified
          simp only [Action.singleOrDefault, Program.andThen_ok, Program.wp_bind]
          refine Action.calm_utcNow calm ?_
          intro read _
          rw [Program.andThen_ok]
          obtain ⟨resolved, entry, one, tracked, current⟩ :=
            tracks.resolve tokenRow (owns.trans sameSession.symm)
          rw [current]
          refine judge_revokesOnce presents (congrArg Prod.snd named) resolved one tracked ?_ ?_ ?_
          · exact Tracked.key_instanceOf.trans sameToken.symm
          · obtain ⟨entry, member, same⟩ :
                ∃ entry ∈ Tracked.resolve RefreshToken.id tokenRow tracker.refreshTokens,
                  entry.current = _ := Tracked.tracked_instanceOf
            exact ⟨entry, member, same ▸ Tracked.key_instanceOf.trans sameToken.symm⟩
          · exact ⟨fun used => .of_instanceOf used sameToken.symm, fun spent =>
              spent.instanceOf sameToken.symm⟩

theorem rotateAsync_revokesOnce (presents : token? call = some token) :
    (rotateAsync services http token).wp (.revokedOnce services token? identity) call
      (fun _ _ => True) state := by
  have each : ∀ tracked current, TracksOne (identity (services.tokenGenerator.hash token)).1
      (identity (services.tokenGenerator.hash token)).2 tracked →
      (attempt services http (services.tokenGenerator.hash token) tracked).wp
        (.revokedOnce services token? identity) call (EndsTracking _ _) current :=
    fun _ _ known => attempt_revokesOnce presents rfl known
  exact Action.wp_executionStrategy each (fun _ _ _ => trivial) .empty

end RefreshTokenService

/-! ### The operations -/

namespace RevokesOnce

theorem revoke {pred : Session → Bool} (live : ∀ row, pred row = true → row.revokedAt = none)
    (reason : SessionRevocationReason) (now : Instant) :
    RevokesOnce services token? identity
      (SessionService.updateSessions pred (SessionService.revoked reason now)) :=
  updateSessions (fun _ => rfl) fun row hit revoked => absurd (live row hit) revoked

theorem revokeAsync (sessionId : Guid) (reason : SessionRevocationReason) :
    RevokesOnce services token? identity (SessionService.revokeAsync sessionId reason) := by
  refine .bind .utcNow fun _ => .bind (revoke ?_ _ _) fun _ => .pure _
  intro row hit
  simp only [Bool.and_eq_true, decide_eq_true_eq] at hit
  exact hit.2

theorem revokeAllForUserAsync (userId : Guid) (exceptSessionId : Option Guid)
    (reason : SessionRevocationReason) :
    RevokesOnce services token? identity
      (SessionService.revokeAllForUserAsync userId exceptSessionId reason) := by
  refine .bind .utcNow fun _ => revoke ?_ _ _
  intro row hit
  simp only [SessionService.otherSession, Bool.and_eq_true, decide_eq_true_eq] at hit
  exact hit.1.2

theorem revokeForSessionAsync (sessionId : Guid) :
    RevokesOnce services token? identity (RefreshTokenService.revokeForSessionAsync sessionId) :=
  .bind .utcNow fun _ => .bind (elsewhere fun _ => rfl) fun _ => .pure _

/-- A save of users alone. -/
theorem updateUser (original current : User) :
    RevokesOnce services token? identity
      (Action.saveChanges fun now db => db.updateUser now original current) := by
  refine .frame_saveChanges ?_
  intro now db after saved
  obtain ⟨users, rfl⟩ := Db.updateUser_ok saved
  rfl

theorem deleteUser (user : User) :
    RevokesOnce services token? identity (Action.saveChanges fun _ db => db.deleteUser user) := by
  refine saveChanges ?_
  intro now db after saved
  unfold Db.deleteUser at saved
  split at saved
  · cases saved
    exact .deleteWhere _ _
  · cases saved

theorem createSession (request : NewSessionRequest) :
    RevokesOnce services token? identity (SessionService.createAsync services request) := by
  apply Keeps.bind .utcNow
  intro now
  apply Keeps.bind (.queryOrThrow _)
  intro found
  apply Keeps.bind .draw
  intro drawn
  apply Keeps.bind
  · refine saveChanges ?_
    intro now db after saved
    obtain ⟨⟨fresh, -⟩, rfl⟩ := Db.insertSession_eq_ok.mp saved
    exact .append fresh
  intro _
  exact .pure _

theorem createAsync (http : HttpContext) (userId : Guid) (methods : List AuthenticationMethod) :
    RevokesOnce services token? identity
      (AuthenticationSessionFactory.createAsync services http userId methods) := by
  apply Keeps.bind (.queryOrThrow _)
  intro securityStamp
  apply Keeps.bind (.query _)
  intro found
  apply Keeps.bind .utcNow
  intro now
  apply Keeps.bind (createSession _)
  intro _
  apply Keeps.bind
  · exact RefreshTokenService.issueAsync_frame (fun _ _ => rfl) services _
  intro _
  exact .bind (.accessToken services _) fun _ => .pure _

theorem changePasswordAsync (http : HttpContext) (userId currentSessionId : Guid)
    (currentPassword newPassword : String) :
    RevokesOnce services token? identity (UserService.changePasswordAsync services http userId
      currentSessionId currentPassword newPassword) := by
  apply Keeps.bind (.queryOrThrow _)
  intro found
  apply Keeps.bind (.orThrow _ found)
  intro user
  apply Keeps.guard
  refine .bind .draw fun _ => .bind .draw fun _ => .bind (updateSessions (fun _ => rfl) ?_) fun _ =>
    .bind (updateUser _ _) fun _ => .bind (revokeAllForUserAsync _ _ _) fun _ =>
      .bind (.logAsync _ _ _) fun _ => .notifyAsync _ _ _
  exact fun _ _ _ => rfl

theorem confirmAsync (http : HttpContext) (token newPassword : String) :
    RevokesOnce services token? identity
      (PasswordResetService.confirmAsync services http token newPassword) := by
  apply Keeps.bind .utcNow
  intro now
  apply Keeps.bind
  · exact VerificationTokens.consume_frame (fun _ _ => rfl) (fun _ => not_false) _ _ _ _
  intro _
  apply Keeps.guard
  refine .bind (.queryOrThrow _) fun owner => .bind (.orThrow _ owner) fun userId =>
    .bind (.queryOrThrow _) fun _ => .bind .draw fun _ => .bind .draw fun _ =>
      .bind (updateUser _ _) fun _ => .bind (revokeAllForUserAsync _ _ _) fun _ =>
        .bind (.logAsync _ _ _) fun _ => .bind (.notifyAsync _ _ _) fun _ => ?_
  exact .ite (.logAsync _ _ _) (.pure _)

theorem cleanupOnceAsync :
    RevokesOnce services token? identity
      (ExpiredAuthArtifactCleanupService.cleanupOnceAsync services) := by
  apply Keeps.bind .utcNow
  intro now
  apply Keeps.bind
  · apply Keeps.bind (.query _)
    intro found
    apply Keeps.ite
    · exact .bind (elsewhere fun _ => rfl) fun _ => .pure _
    · exact .pure _
  intro _
  apply Keeps.bind
  · apply Keeps.bind (.query _)
    intro found
    apply Keeps.ite
    · refine .bind (Keeps.execute fun _ _ current _ _ _ => ?_) fun _ => .pure _
      exact ⟨.deleteWhere _ _, trivial⟩
    · exact .pure _
  intro _
  apply Keeps.bind
  · apply Keeps.bind (.query _)
    intro found
    apply Keeps.ite
    · exact .bind (elsewhere fun _ => rfl) fun _ => .pure _
    · exact .pure _
  intro _
  apply Keeps.bind (.query _)
  intro found
  apply Keeps.ite
  · exact .bind (elsewhere fun _ => rfl) fun _ => .pure _
  · exact .pure _

theorem disableAsync (http : HttpContext) (userId : Guid) :
    RevokesOnce services token? identity (TotpService.disableAsync http userId) := by
  refine .bind (elsewhere fun _ => rfl) fun _ => .guard ?_
  refine .bind (elsewhere fun _ => rfl) fun _ => .bind (revokeAllForUserAsync _ _ _) fun _ => ?_
  exact .ite (.bind (.logAsync _ _ _) fun _ => .notifyAsync _ _ _) (.notifyAsync _ _ _)

theorem deleteAccountAsync (userId : Guid) :
    RevokesOnce services token? identity (UserService.deleteAccountAsync userId) := by
  apply Keeps.bind (.queryOrThrow _)
  intro found
  apply Keeps.bind (.orThrow _ found)
  intro user
  exact .bind (revokeAllForUserAsync _ _ _) fun _ => deleteUser user

theorem adminUpdateAsync (userId : Guid) (request : AdminUpdateUserRequest) :
    RevokesOnce services token? identity (AdminUserService.updateAsync userId request) := by
  apply Keeps.bind (.queryOrThrow _)
  intro found
  apply Keeps.bind (.orThrow _ found)
  intro user
  apply Keeps.bind
  · refine .frame_saveChanges ?_
    intro now db after saved
    obtain ⟨-, -, updated⟩ := bind_eq_ok.mp saved
    obtain ⟨users, rfl⟩ := Db.updateUser_ok updated
    rfl
  intro _
  apply Keeps.bind (.queryOrThrow _)
  intro detail
  apply Keeps.bind (.orThrow _ detail)
  intro value
  exact .bind (.query _) fun _ => .pure _

theorem adminDeleteAsync (http : HttpContext) (userId : Guid) :
    RevokesOnce services token? identity (AdminUserService.deleteAsync http userId) := by
  apply Keeps.bind (.queryOrThrow _)
  intro found
  apply Keeps.bind (.orThrow _ found)
  intro user
  apply Keeps.bind (revokeAllForUserAsync _ _ _)
  intro _
  exact .bind (deleteUser user) fun _ => .logAsync _ _ _

theorem adminRevokeAllAsync (userId : Guid) :
    RevokesOnce services token? identity (AdminSessionService.revokeAllAsync userId) :=
  .bind (.query _) fun _ => .guard (revokeAllForUserAsync _ _ _)

end RevokesOnce

end

/-- The operations that write sessions. -/
inductive RevokingOperation
  | session (op : SessionOperation)
  | disableMfa (http : HttpContext) (userId : Guid)
  | deleteAccount (userId : Guid)
  | adminRevokeAll (userId : Guid)
  | adminUpdate (userId : Guid) (request : AdminUpdateUserRequest)
  | adminDelete (http : HttpContext) (userId : Guid)

namespace RevokingOperation

def program (services : Services) : RevokingOperation → Action SessionResponse
  | session op => op.program services
  | disableMfa http userId => do
      TotpService.disableAsync http userId
      return .completed
  | deleteAccount userId => do
      UserService.deleteAccountAsync userId
      return .completed
  | adminRevokeAll userId => do
      let _ ← AdminSessionService.revokeAllAsync userId
      return .completed
  | adminUpdate userId request => do
      let _ ← AdminUserService.updateAsync userId request
      return .completed
  | adminDelete http userId => do
      AdminUserService.deleteAsync http userId
      return .completed

/-- The token that an operation presents. -/
def token? : RevokingOperation → Option String
  | session (.rotate _ token) => some token
  | _ => none

end RevokingOperation

/-- Operations that have not begun. -/
def operatingRevocations (services : Services) (operations : List RevokingOperation)
    (start : State) :
    SessionPool where
  shared := start
  calls := operations.map (·.program services)

/-- The token that a call presents. -/
def presentedBy (operations : List RevokingOperation) (call : ℕ) : Option String :=
  operations[call]?.bind RevokingOperation.token?

section

variable {services : Services} {operations : List RevokingOperation} {start : State}
variable {identity : String → Guid × Guid}

theorem SessionOperation.revokesOnce {token? : ℕ → Option String} {op : SessionOperation}
    (presents : ∀ http token, op ≠ .rotate http token) :
    RevokesOnce services token? identity (op.program services) := by
  cases op with
  | rotate http token => exact absurd rfl (presents http token)
  | signIn http userId methods => exact .bind (RevokesOnce.createAsync _ _ _) fun _ => .pure _
  | issue sessionId =>
      exact .bind (RefreshTokenService.issueAsync_frame (fun _ _ => rfl) services _)
        fun _ => .pure _
  | revokeTokens sessionId => exact .bind (RevokesOnce.revokeForSessionAsync _) fun _ => .pure _
  | touch sessionId =>
      apply Keeps.bind
      · apply Keeps.bind .utcNow
        intro now
        apply Keeps.bind
        · refine RevokesOnce.updateSessions (fun _ => rfl) ?_
          exact fun _ _ _ => rfl
        intro _
        exact .pure _
      intro _
      exact .pure _
  | markReauthenticated sessionId =>
      apply Keeps.bind
      · apply Keeps.bind .utcNow
        intro now
        apply Keeps.bind
        · refine RevokesOnce.updateSessions (fun _ => rfl) ?_
          exact fun _ _ _ => rfl
        intro _
        exact .pure _
      intro _
      exact .pure _
  | revoke sessionId reason => exact .bind (RevokesOnce.revokeAsync _ _) fun _ => .pure _
  | revokeAllForUser userId exceptSessionId reason =>
      exact .bind (RevokesOnce.revokeAllForUserAsync _ _ _) fun _ => .pure _
  | revokeOne http userId sessionId =>
      apply Keeps.bind
      · apply Keeps.bind (.query _)
        intro found
        apply Keeps.guard
        exact .bind (RevokesOnce.revokeAsync _ _) fun _ =>
          .bind (RevokesOnce.revokeForSessionAsync _) fun _ => .logAsync _ _ _
      intro _
      exact .pure _
  | revokeAllOthers http userId currentSessionId =>
      apply Keeps.bind
      · apply Keeps.bind (.query _)
        intro found
        apply Keeps.bind (RevokesOnce.revokeAllForUserAsync _ _ _)
        intro _
        apply Keeps.ite
        · exact .bind .utcNow fun _ => .bind (RevokesOnce.elsewhere fun _ => rfl) fun _ =>
            .bind (.logAsync _ _ _) fun _ => .pure _
        · exact .pure _
      intro _
      exact .pure _
  | logout http userId sessionId =>
      apply Keeps.bind
      · apply Keeps.bind (RevokesOnce.revokeAsync _ _)
        intro _
        exact .bind (RevokesOnce.revokeForSessionAsync _) fun _ => .logAsync _ _ _
      intro _
      exact .pure _
  | changePassword http userId currentSessionId currentPassword newPassword =>
      exact .bind (RevokesOnce.changePasswordAsync _ _ _ _ _) fun _ => .pure _
  | confirmPasswordReset http token newPassword =>
      exact .bind (RevokesOnce.confirmAsync _ _ _) fun _ => .pure _
  | cleanup => exact .bind RevokesOnce.cleanupOnceAsync fun _ => .pure _

theorem RevokingOperation.wp_program {call : ℕ} {op : RevokingOperation}
    (found : operations[call]? = some op) (state : State) :
    (op.program services).wp (.revokedOnce services (presentedBy operations) identity) call
      (fun _ _ => True) state := by
  have ended : ∀ {program : Action SessionResponse},
      RevokesOnce services (presentedBy operations) identity program →
      program.wp (.revokedOnce services (presentedBy operations) identity) call (fun _ _ => True)
        state := fun keeps => keeps call state
  cases op with
  | disableMfa http userId => exact ended (.bind (RevokesOnce.disableAsync _ _) fun _ => .pure _)
  | deleteAccount userId => exact ended (.bind (RevokesOnce.deleteAccountAsync _) fun _ => .pure _)
  | adminRevokeAll userId =>
      exact ended (.bind (RevokesOnce.adminRevokeAllAsync _) fun _ => .pure _)
  | adminUpdate userId request =>
      exact ended (.bind (RevokesOnce.adminUpdateAsync _ _) fun _ => .pure _)
  | adminDelete http userId =>
      exact ended (.bind (RevokesOnce.adminDeleteAsync _ _) fun _ => .pure _)
  | session op =>
      by_cases rotates : ∃ http token, op = .rotate http token
      · obtain ⟨http, token, rfl⟩ := rotates
        have presents : presentedBy operations call = some token := by
          simp [presentedBy, found, RevokingOperation.token?]
        refine Program.wp_bind_of (RefreshTokenService.rotateAsync_revokesOnce presents) ?_ ?_
        · exact fun _ _ _ => trivial
        · exact fun _ _ _ => trivial
      · exact ended
          (SessionOperation.revokesOnce fun http token same => rotates ⟨http, token, same⟩)

/-- One step of an interleaving. -/
theorem step_revocationsStay {schedule : List (ℕ × Input)} {call : ℕ} {input : Input}
    (admitted : (operatingRevocations services operations start).Admitted
      (RevokesLive services (presentedBy operations) identity) (schedule ++ [(call, input)])) :
    RevocationsStay
      ((operatingRevocations services operations start).run schedule).shared.store.db.sessions
      ((operatingRevocations services operations start).run
        (schedule ++ [(call, input)])).shared.store.db.sessions := by
  have each : ∀ (call : ℕ) (program : Action SessionResponse),
      (operatingRevocations services operations start).calls[call]? = some program →
      ∃ state, program.wp (.revokedOnce services (presentedBy operations) identity) call
        (fun _ _ => True) state := by
    intro other program present
    simp only [operatingRevocations, List.getElem?_map, Option.map_eq_some_iff] at present
    obtain ⟨op, known, rfl⟩ := present
    exact ⟨start, op.wp_program known start⟩
  rw [Pool.run_append]
  exact Pool.run_stepwise (fun _ => RevocationsStay.refl _) each admitted

theorem sessionIds_keyed (sessionIds : Table.Keyed Session.id start.store.db.sessions)
    {schedule : List (ℕ × Input)}
    (admitted : (operatingRevocations services operations start).Admitted
      (RevokesLive services (presentedBy operations) identity) schedule) :
    Table.Keyed Session.id
      ((operatingRevocations services operations start).run schedule).shared.store.db.sessions := by
  induction schedule using List.reverseRec with
  | nil => exact sessionIds
  | append_singleton steps last inductionHypothesis =>
      have before := inductionHypothesis (Pool.admitted_append.mp admitted).1
      exact (step_revocationsStay admitted before).1

/-- In every interleaving in which a replay is committed on a live session, a revoked session keeps
when and why it was revoked, until it is deleted. -/
theorem revocation_written_once
    (sessionIds : Table.Keyed Session.id start.store.db.sessions) {early late : List (ℕ × Input)}
    (admitted : (operatingRevocations services operations start).Admitted
      (RevokesLive services (presentedBy operations) identity) (early ++ late))
    {session : Session}
    (member : session ∈
      ((operatingRevocations services operations start).run early).shared.store.db.sessions)
    (revoked : session.revokedAt ≠ none)
    (stored : ∀ steps, steps <+: late →
      ∃ row ∈ ((operatingRevocations services operations start).run
      (early ++ steps)).shared.store.db.sessions, row.id = session.id) :
    ∀ row ∈ ((operatingRevocations services operations start).run
        (early ++ late)).shared.store.db.sessions, row.id = session.id →
      row.revokedAt = session.revokedAt ∧ row.revocationReason = session.revocationReason := by
  have same : ∀ row ∈ ((operatingRevocations services operations start).run
      (early ++ late)).shared.store.db.sessions, row.id = session.id →
        row.revocation = session.revocation := by
    induction late using List.reverseRec with
    | nil =>
        rw [List.append_nil] at admitted ⊢
        intro row rowMember sameId
        rw [(sessionIds_keyed sessionIds admitted).eq_of_key rowMember member sameId]
    | append_singleton steps last inductionHypothesis =>
        rw [← List.append_assoc] at admitted ⊢
        have admittedBefore := (Pool.admitted_append.mp admitted).1
        have keyed := sessionIds_keyed sessionIds admittedBefore
        obtain ⟨between, betweenMember, betweenId⟩ := stored steps (List.prefix_append _ _)
        have kept : between.revocation = session.revocation :=
          inductionHypothesis admittedBefore
            (fun before begins => stored before (begins.trans (List.prefix_append _ _)))
            between betweenMember betweenId
        have stillRevoked : between.revokedAt ≠ none := by
          rw [show between.revokedAt = session.revokedAt from congrArg Prod.fst kept]
          exact revoked
        intro row rowMember rowId
        have stays := (step_revocationsStay admitted keyed).2 between betweenMember stillRevoked row
          rowMember (rowId.trans betweenId.symm)
        exact stays.trans kept
  intro row rowMember rowId
  have kept := same row rowMember rowId
  exact ⟨congrArg Prod.fst kept, congrArg Prod.snd kept⟩

end

/-- A presentation of the first token, a second one, a logout, and a third one. -/
def replayedTwice : SessionPool :=
  operatingRevocations .sample
    [.session (.rotate {} "first"), .session (.rotate {} "first"), .session (.logout {} 1 2),
      .session (.rotate {} "first")]
    (Shared.initial RefreshTokenService.sampleWorld ⟨10, false⟩)

/-- The token and the session of the two hashes that occur. -/
def sampleIdentity (hash : String) : Guid × Guid := if hash = "sha256:first" then (3, 2) else (5, 2)

/-- All steps of a call at one reading of the clock. -/
def stepsAt (call : ℕ) (now : Instant) : List (ℕ × Input) := List.replicate 16 (call, ⟨now, false⟩)

/-- When the session of the sample was revoked, and why. -/
def revocation? (pool : SessionPool) : Option (Option Instant × Option SessionRevocationReason) :=
  (pool.shared.store.db.sessions.find? (·.id = 2)).map Session.revocation

set_option maxRecDepth 40000 in
theorem revocation_written_once_sample :
    revocation? (replayedTwice.run (stepsAt 0 10 ++ stepsAt 1 11)) =
        some (some 11, some .tokenReuseDetected) ∧
      ∀ row ∈ (replayedTwice.run
          (stepsAt 0 10 ++ stepsAt 1 11 ++ stepsAt 2 12)).shared.store.db.sessions,
        row.id = 2 → row.revokedAt = some 11 ∧ row.revocationReason = some .tokenReuseDetected := by
  let session : Session :=
    { id := 2
      userId := 1
      authenticatedAt := 0
      authenticationMethods := [.password]
      securityStamp := 7
      lastActiveAt := 10
      absoluteExpiresAt := 10080
      revokedAt := some 11
      revocationReason := some .tokenReuseDetected
      updatedAt := 11 }
  have admitted : replayedTwice.Admitted
      (RevokesLive .sample
        (presentedBy [.session (.rotate {} "first"), .session (.rotate {} "first"),
        .session (.logout {} 1 2), .session (.rotate {} "first")]) sampleIdentity)
      (stepsAt 0 10 ++ stepsAt 1 11 ++ stepsAt 2 12) :=
    Pool.admitted_of_admitted? (by decide +kernel)
  have member : session ∈
      (replayedTwice.run (stepsAt 0 10 ++ stepsAt 1 11)).shared.store.db.sessions := by
    decide +kernel
  have stored : ∀ steps ∈ (stepsAt 2 12).inits, ∃ row ∈ (replayedTwice.run
      (stepsAt 0 10 ++ stepsAt 1 11 ++ steps)).shared.store.db.sessions, row.id = session.id := by
    decide +kernel
  have remains : ∀ steps, steps <+: stepsAt 2 12 → ∃ row ∈ (replayedTwice.run
      (stepsAt 0 10 ++ stepsAt 1 11 ++ steps)).shared.store.db.sessions, row.id = session.id :=
    fun steps begins => stored steps ((List.mem_inits _ _).mpr begins)
  have keyed : Table.Keyed Session.id (Shared.initial RefreshTokenService.sampleWorld
      ⟨10, false⟩).store.db.sessions := by decide
  have revoked : session.revokedAt ≠ none := Option.some_ne_none 11
  exact ⟨by decide +kernel, revocation_written_once keyed admitted member revoked remains⟩

/-- A session that was logged out is revoked again by the replay of a token that was spent
before. -/
theorem replay_rewrites_revocation :
    revocation? (replayedTwice.run (stepsAt 0 10 ++ stepsAt 2 12)) = some (some 12, some .logout) ∧
      revocation? (replayedTwice.run (stepsAt 0 10 ++ stepsAt 2 12 ++ stepsAt 1 13)) =
        some (some 13, some .tokenReuseDetected) := by
  decide +kernel

end AuthStartpack
