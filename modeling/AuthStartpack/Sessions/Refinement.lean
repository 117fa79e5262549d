import AuthStartpack.Program.Sequential
import AuthStartpack.Refresh.Uninterrupted
import AuthStartpack.Services.Auth.AuthenticationSessionFactory
import AuthStartpack.Services.Auth.PasswordResetService
import AuthStartpack.Services.Cleanup
import AuthStartpack.Services.Sessions.SessionQueryService
import AuthStartpack.Services.Users.UserService
import AuthStartpack.Sessions.Ledger

/-!
Owns the refinement of the ledger by the services: every operation that writes
sessions or refresh tokens, run to its end, makes entries in the ledger and
nothing else. Whatever every entry keeps is then kept by every run of the
operations.
-/

namespace AuthStartpack

/-- The ledger of a state. -/
def Shared.ledger (state : State) : Ledger where
  sessions := state.store.db.sessions
  tokens := state.store.db.refreshTokens
  supply := state.store.supply
  clock := state.last.now

/-- From one state to the other, permitted entries were made in the ledger. -/
def Entered (policy : Ledger.Policy) (before after : State) : Prop :=
  before.ledger.Run policy after.ledger

/-- Run without interruption, the program makes permitted entries in the ledger. -/
abbrev Refines {α : Type} (policy : Ledger.Policy) (program : Action α) : Prop :=
  Keeps .timely (Entered policy) program

theorem Later.sessions {before after : State} (later : Later before after) :
    after.store.db.sessions = before.store.db.sessions := by
  obtain ⟨auditLogEntries, equal⟩ := later.undisturbed.store.db
  rw [equal]

theorem Later.refreshTokens {before after : State} (later : Later before after) :
    after.store.db.refreshTokens = before.store.db.refreshTokens := by
  obtain ⟨auditLogEntries, equal⟩ := later.undisturbed.store.db
  rw [equal]

variable {policy : Ledger.Policy}

/-- Reading, drawing and reporting leave the ledger as it is. -/
theorem Later.run {before after : State} (later : Later before after) :
    before.ledger.Run policy after.ledger :=
  .single ⟨later.undisturbed.store.supply, later.clock, .kept later.sessions later.refreshTokens⟩

/-- A write, with the reads before it, is one entry of the ledger that they began with. -/
theorem Later.run_write {start current : State} (later : Later start current) {call : ℕ}
    {input : Input} {events : List Event} {db : Db} (admitted : Timely current call input events)
    (change : start.ledger.Change policy
      ⟨db.sessions, db.refreshTokens, current.store.supply, input.now⟩) :
    Entered policy start (current.advance call input ({ current.store with db }, events)) :=
  .single ⟨later.undisturbed.store.supply, Int.le_trans later.clock admitted.clock, change⟩

instance : Steady (Entered policy) where
  later _ _ later := later.run
  trans _ _ _ := .trans

namespace Keeps

/-- A save that writes other tables. -/
theorem saveChanges_other {changes : Instant → Db → Except AppException Db}
    {events : Db → List Event}
    (keeps : ∀ now db after, changes now db = .ok after →
      after.sessions = db.sessions ∧ after.refreshTokens = db.refreshTokens) :
    Refines policy (Action.saveChanges changes events) := by
  refine saveChanges ?_
  rintro call start _ input db rfl saved admitted
  obtain ⟨sessions, tokens⟩ := keeps _ _ _ saved
  exact ⟨trivial, (Later.refl start).run_write admitted (.kept sessions tokens)⟩

/-- A bulk statement on other tables. -/
theorem execute_other {count : Db → ℕ} {write : Db → Db} {events : Db → List Event}
    (sessions : ∀ db, (write db).sessions = db.sessions)
    (tokens : ∀ db, (write db).refreshTokens = db.refreshTokens) :
    Refines policy (Action.execute count write events) := by
  refine execute ?_
  rintro call start _ input rfl admitted
  exact ⟨trivial, (Later.refl start).run_write admitted (.kept (sessions _) (tokens _))⟩

theorem updateUser (original current : User) :
    Refines policy (Action.saveChanges fun now db => db.updateUser now original current) := by
  refine saveChanges_other ?_
  intro now db after saved
  obtain ⟨users, rfl⟩ := Db.updateUser_ok saved
  exact ⟨rfl, rfl⟩

theorem consume (hash : String) (type : VerificationTokenType) (now : Instant)
    (requires : VerificationToken → Bool) (consumer : TokenConsumer) :
    Refines policy (VerificationTokens.consume hash type now requires consumer) := by
  unfold VerificationTokens.consume
  apply execute_other
  · intro db
    rfl
  · intro db
    rfl

/-- A bulk update of sessions. -/
theorem updateSessions {pred : Session → Bool} {write : Session → Session}
    (evolves : ∀ row, pred row = true → row.Evolves (write row)) :
    Refines policy (SessionService.updateSessions pred write) := by
  refine execute ?_
  rintro call start _ input rfl admitted
  refine ⟨trivial, (Later.refl start).run_write admitted
    (.evolved (fun row => if pred row then write row else row) ?_ rfl rfl)⟩
  intro row _
  by_cases hit : pred row = true
  · simpa only [hit, if_true] using evolves row hit
  · simpa only [hit, Bool.false_eq_true, if_false] using .refl row

/-- The outstanding tokens of some sessions expire. -/
theorem expire {now : Instant} {pred : RefreshToken → Bool} {count : Db → ℕ}
    (outstanding : ∀ row, pred row = true → row.usedAt = none ∧ now < row.expiresAt) :
    Keeps .timely (Since now (Entered policy)) (Action.execute count
      (fun db => { db with
        refreshTokens := Table.updateWhere pred ({ · with expiresAt := now }) db.refreshTokens })
      fun _ => []) := by
  refine execute ?_
  rintro call start _ input rfl admitted
  refine ⟨trivial, fun begun => ⟨(Later.refl start).run_write admitted
    (.expired pred now outstanding (Int.le_trans begun admitted.clock) rfl rfl), admitted.clock⟩⟩

/-- An operation that does not use the reading. -/
theorem since {α : Type} {program : Action α} (refines : Refines policy program) (now : Instant) :
    Keeps .timely (Since now (Entered policy)) program := by
  intro call start
  refine Program.wp_mono (refines call start) ?_
  intro outcome after run _
  exact ⟨run, run.clock⟩

end Keeps

/-! ### The services -/

namespace SessionService

variable (policy) in
/-- A session is opened, and nothing is drawn after its id. -/
theorem createAsync_opens (services : Services) (request : NewSessionRequest) (call : ℕ)
    (start : State) :
    (createAsync services request).wp (.alone Timely fun _ _ => True) call
      (fun outcome after => Entered policy start after ∧
        ∀ id, outcome = .ok id → after.store.supply = id + 1) start := by
  have calm := Calm.timely call
  simp only [createAsync, Program.wp_bind]
  refine Action.calm_utcNow calm ?_
  intro read reading
  simp only [Program.andThen_ok, Program.wp_bind]
  refine Action.calm_queryOrThrow calm ?_
  intro stamped stamp
  have reached := reading.trans stamp
  cases Action.single ((stamped.store.db.users.filter (·.id = request.userId)).map
      (·.securityStamp)) with
  | error exception => exact ⟨reached.run, by rintro _ ⟨⟩⟩
  | ok securityStamp =>
  simp only [Program.andThen_ok, Program.wp_bind]
  refine alone_draw ?_
  intro input admitted
  have drew := reached.trans (later_drew admitted)
  simp only [Program.andThen_ok, Program.wp_bind]
  refine alone_saveChanges ?_ ?_
  · intro savedAt db saved savedAdmitted
    let row : Session :=
      { newSession services request stamped.store.supply securityStamp read.last.now with
        createdAt := savedAt.now, updatedAt := savedAt.now }
    obtain ⟨-, rfl⟩ := Db.insertSession_eq_ok.mp saved
    have drawn : start.store.supply ≤ row.id := reached.undisturbed.store.supply
    refine ⟨drew.run_write savedAdmitted
      (.opened row drawn (Nat.lt_succ_self _) ?_ drew.refreshTokens),
      ?_⟩
    · simp only [drew.sessions, Shared.ledger]
      rfl
    · intro id answered
      cases answered
      rfl
  · intro savedAt exception refused savedAdmitted
    exact ⟨(drew.trans (later_observed savedAdmitted)).run, by rintro _ ⟨⟩⟩

theorem revoked_evolves (reason : SessionRevocationReason) (now : Instant) (row : Session) :
    row.Evolves (revoked reason now row) :=
  ⟨rfl, rfl, rfl, rfl, fun _ => by simp [revoked]⟩

theorem touchAsync_refines (sessionId : Guid) : Refines policy (touchAsync sessionId) :=
  .bind .utcNow fun _ => .bind (.updateSessions fun _ _ => ⟨rfl, rfl, rfl, rfl, id⟩)
    fun _ => .pure _

theorem markReauthenticatedAsync_refines (sessionId : Guid) :
    Refines policy (markReauthenticatedAsync sessionId) :=
  .bind .utcNow fun _ => .bind (.updateSessions fun _ _ => ⟨rfl, rfl, rfl, rfl, id⟩)
    fun _ => .pure _

theorem revokeAsync_refines (sessionId : Guid) (reason : SessionRevocationReason) :
    Refines policy (revokeAsync sessionId reason) :=
  .bind .utcNow fun now =>
    .bind (.updateSessions fun row _ => revoked_evolves reason now row) fun _ => .pure _

theorem revokeAllForUserAsync_refines (userId : Guid) (exceptSessionId : Option Guid)
    (reason : SessionRevocationReason) :
    Refines policy (revokeAllForUserAsync userId exceptSessionId reason) :=
  .bind .utcNow fun now => .updateSessions fun row _ => revoked_evolves reason now row

end SessionService

namespace RefreshTokenService

/-- The token that `CreateToken` made is new, and issued to its session. -/
theorem drawn_fresh {services : Services} {start drawn current : State} {session : Session}
    {successor : RefreshToken} (draw : Drawn services Later start drawn session successor)
    (later : Later drawn current) :
    start.store.supply ≤ successor.id ∧ successor.id < current.store.supply := by
  obtain ⟨earlier, since, number⟩ := draw.numbered
  constructor
  · rw [number]
    exact since.undisturbed.store.supply
  · refine Nat.lt_of_lt_of_le ?_ later.undisturbed.store.supply
    rw [draw.supply]
    exact Nat.lt_succ_self _

/-- A token is issued, if the policy permits it. -/
theorem issueAsync_issues (services : Services) {sessionId : Guid} (call : ℕ) {start : State}
    (permitted : ∀ session ∈ start.store.db.sessions, session.id = sessionId →
      policy.issues start.ledger session) :
    (issueAsync services sessionId).wp (.alone Timely fun _ _ => True) call
      (fun _ after => Entered policy start after) start := by
  have calm := Calm.timely call
  simp only [issueAsync, Program.wp_bind]
  refine Action.calm_queryOrThrow calm ?_
  intro found find
  cases single : Action.single (found.store.db.sessions.filter (·.id = sessionId)) with
  | error exception => exact find.run
  | ok session =>
  obtain ⟨member, hit⟩ := Action.mem_of_single single
  obtain rfl : session.id = sessionId := by simpa using hit
  simp only [Program.andThen_ok, Program.wp_bind]
  refine wp_createToken calm ?_
  intro issued drawn entity draw
  have whole := find.trans draw.reached
  simp only [Program.andThen_ok, Program.wp_bind]
  refine Action.wp_saveChanges calm ?_ ?_
  · intro current input db later saved admitted
    have kept := whole.trans later
    let row : RefreshToken := { entity with createdAt := input.now, updatedAt := input.now }
    obtain ⟨⟨freshId, freshHash, owned⟩, inserted⟩ := Db.insertRefreshToken_eq_ok.mp saved
    obtain ⟨begun, given⟩ := drawn_fresh draw later
    have issuedTo : row.IssuedTo session := ⟨draw.owner, draw.expiry, draw.unused, draw.unlinked⟩
    have owner : session ∈ start.ledger.sessions := by
      rw [find.sessions] at member
      exact member
    refine ⟨trivial, kept.run_write admitted
      (.issued session row owner (permitted session owner rfl) issuedTo ?_ ?_ ?_)⟩
    · refine ⟨Nat.le_trans find.undisturbed.store.supply begun, given, ?_⟩
      intro other otherMember
      refine freshHash other ?_
      rw [kept.refreshTokens]
      exact otherMember
    · rw [inserted]
      exact kept.sessions
    · rw [inserted, kept.refreshTokens]
      rfl
  · intro current after exception now later rests _
    exact ((whole.trans later).trans rests).run

theorem issueAsync_refines (permitted : ∀ ledger session, policy.issues ledger session)
    (services : Services) (sessionId : Guid) : Refines policy (issueAsync services sessionId) :=
  fun call _ => issueAsync_issues services call fun _ _ _ => permitted _ _

theorem revokeForSessionAsync_refines (sessionId : Guid) :
    Refines policy (revokeForSessionAsync sessionId) := by
  refine .utcNow_bind fun now => ?_
  refine .bind (.expire ?_) fun _ => .pure _
  intro row hit
  simp only [outstanding, Bool.and_eq_true, decide_eq_true_eq] at hit
  exact ⟨hit.1.2, hit.2⟩

end RefreshTokenService

namespace AuthenticationSessionFactory

theorem createAsync_refines (services : Services) (http : HttpContext) (userId : Guid)
    (methods : List AuthenticationMethod) :
    Refines policy (createAsync services http userId methods) := by
  refine .bind (.queryOrThrow _) fun _ => .bind (.query _) fun _ => .bind .utcNow fun _ => ?_
  intro call start
  refine Program.wp_bind_of (SessionService.createAsync_opens policy services _ call start) ?_ ?_
  · rintro sessionId opened ⟨entered, last⟩
    have permitted : ∀ session ∈ opened.store.db.sessions, session.id = sessionId →
        policy.issues opened.ledger session := by
      intro session _ same
      apply policy.latest
      rw [same]
      exact last sessionId rfl
    refine Program.wp_bind_of
      (RefreshTokenService.issueAsync_issues services call permitted) ?_ ?_
    · intro refresh issued run
      exact Keeps.after (.bind (.accessToken services _) fun _ => .pure _) (entered.trans run)
    · intro exception current run
      exact entered.trans run
  · rintro exception current ⟨entered, -⟩
    exact entered

end AuthenticationSessionFactory

namespace SessionQueryService

theorem revokeAsync_refines (http : HttpContext) (userId sessionId : Guid) :
    Refines policy (revokeAsync http userId sessionId) := by
  refine .bind (.query _) fun found => .guard ?_
  exact .bind (SessionService.revokeAsync_refines sessionId _) fun _ =>
    .bind (RefreshTokenService.revokeForSessionAsync_refines sessionId) fun _ => .logAsync http _ _

theorem revokeAllOthersAsync_refines (http : HttpContext) (userId currentSessionId : Guid) :
    Refines policy (revokeAllOthersAsync http userId currentSessionId) := by
  refine .bind (.query _) fun sessionIds => ?_
  refine .bind (SessionService.revokeAllForUserAsync_refines userId _ _) fun count => ?_
  refine .ite ?_ (.pure _)
  refine .utcNow_bind fun now => ?_
  refine .bind (.expire ?_) fun _ => .bind (.logAsync http _ _) fun _ => .pure _
  intro row hit
  simp only [outstanding, Bool.and_eq_true, decide_eq_true_eq] at hit
  exact ⟨hit.1.2, hit.2⟩

end SessionQueryService

namespace LogoutService

theorem logoutAsync_refines (http : HttpContext) (userId sessionId : Guid) :
    Refines policy (logoutAsync http userId sessionId) :=
  .bind (SessionService.revokeAsync_refines sessionId _) fun _ =>
    .bind (RefreshTokenService.revokeForSessionAsync_refines sessionId) fun _ => .logAsync http _ _

end LogoutService

namespace UserService

theorem changePasswordAsync_refines (services : Services) (http : HttpContext)
    (userId currentSessionId : Guid) (currentPassword newPassword : String) :
    Refines policy (changePasswordAsync services http userId currentSessionId currentPassword
      newPassword) := by
  refine .bind (.queryOrThrow _) fun found => .bind (.orThrow _ found) fun user => .guard ?_
  refine .bind .draw fun salt => .bind .draw fun stamp => ?_
  refine .bind (.updateSessions fun _ _ => ⟨rfl, rfl, rfl, rfl, id⟩) fun _ => ?_
  refine .bind (.updateUser _ _) fun _ => ?_
  exact .bind (SessionService.revokeAllForUserAsync_refines userId _ _) fun _ =>
    .bind (.logAsync http _ _) fun _ => .notifyAsync _ _ _

end UserService

namespace PasswordResetService

theorem confirmAsync_refines (services : Services) (http : HttpContext)
    (token newPassword : String) :
      Refines policy (confirmAsync services http token newPassword) := by
  refine .bind .utcNow fun now => .bind (.consume _ _ _ _ _) fun consumed => .guard ?_
  refine .bind (.queryOrThrow _) fun owner => .bind (.orThrow _ owner) fun userId => ?_
  refine .bind (.queryOrThrow _) fun user => .bind .draw fun salt => .bind .draw fun stamp => ?_
  refine .bind (.updateUser _ _) fun _ => ?_
  refine .bind (SessionService.revokeAllForUserAsync_refines userId _ _) fun revoked => ?_
  refine .bind (.logAsync http _ _) fun _ => .bind (.notifyAsync _ _ _) fun _ => ?_
  exact .ite (.logAsync http _ _) (.pure _)

end PasswordResetService

namespace ExpiredAuthArtifactCleanupService

theorem mem_batch {ρ : Type} {key : ρ → Guid} {expiry : ρ → Instant} {pred : ρ → Bool}
    {batchSize : ℕ} {rows : List ρ} {id : Guid}
    (member : id ∈ batch key expiry pred batchSize rows) :
    ∃ row ∈ rows, key row = id ∧ pred row = true := by
  have listed := (List.take_subset _ _) member
  obtain ⟨row, sorted, rfl⟩ := List.mem_map.mp listed
  rw [List.mem_insertionSort, List.mem_filter] at sorted
  exact ⟨row, sorted.1, rfl, sorted.2⟩

theorem deleteRefreshTokensAsync_refines (forgets : policy.forgets) (services : Services)
    (now : Instant) :
    Keeps .timely (Since now (Entered policy)) (deleteRefreshTokensAsync services now) := by
  intro call start
  have calm := Calm.timely call
  simp only [deleteRefreshTokensAsync, Program.wp_bind]
  refine Action.calm_query calm ?_
  intro found find
  rw [find.refreshTokens]
  have listed : ∀ id ∈ batch RefreshToken.id RefreshToken.expiresAt (·.expiresAt ≤ now)
      services.cleanupOptions.batchSize start.store.db.refreshTokens,
      ∃ named ∈ start.store.db.refreshTokens, named.id = id ∧ named.expiresAt ≤ now := by
    intro id member
    simpa using mem_batch member
  generalize batch _ _ _ _ start.store.db.refreshTokens = ids at listed ⊢
  simp only [Program.andThen_ok]
  split
  case isFalse => exact (Keeps.pure ()).after (Steady.later _ _ find)
  rw [Program.wp_bind]
  refine Action.wp_execute calm ?_
  intro current input later admitted
  have whole := find.trans later
  have goesOn := Int.le_trans whole.clock admitted.clock
  refine ⟨trivial, fun begun => ⟨whole.run_write admitted
    (.forgotTokens (fun token => ids.contains token.id) forgets ?_ whole.sessions ?_), goesOn⟩⟩
  · intro row member hit
    obtain ⟨named, namedMember, sameId, elapsed⟩ := listed row.id (List.contains_iff_mem.mp hit)
    exact ⟨named, namedMember, sameId, Int.le_trans elapsed (Int.le_trans begun goesOn)⟩
  · rw [whole.refreshTokens]
    rfl

theorem deleteSessionsAsync_refines (forgets : policy.forgets) (services : Services)
    (now : Instant) :
    Keeps .timely (Since now (Entered policy)) (deleteSessionsAsync services now) := by
  intro call start
  have calm := Calm.timely call
  simp only [deleteSessionsAsync, Program.wp_bind]
  refine Action.calm_query calm ?_
  intro found find
  rw [find.sessions]
  have listed : ∀ id ∈ batch Session.id Session.absoluteExpiresAt (·.absoluteExpiresAt ≤ now)
      services.cleanupOptions.batchSize start.store.db.sessions,
      ∃ named ∈ start.store.db.sessions, named.id = id ∧ named.absoluteExpiresAt ≤ now := by
    intro id member
    simpa using mem_batch member
  generalize batch _ _ _ _ start.store.db.sessions = ids at listed ⊢
  simp only [Program.andThen_ok]
  split
  case isFalse => exact (Keeps.pure ()).after (Steady.later _ _ find)
  rw [Program.wp_bind]
  refine Action.wp_execute calm ?_
  intro current input later admitted
  have whole := find.trans later
  have goesOn := Int.le_trans whole.clock admitted.clock
  refine ⟨trivial, fun begun => ⟨whole.run_write admitted
    (.forgotSessions (fun session => ids.contains session.id) forgets ?_ ?_ ?_), goesOn⟩⟩
  · intro row member hit
    obtain ⟨named, namedMember, sameId, elapsed⟩ := listed row.id (List.contains_iff_mem.mp hit)
    exact ⟨named, namedMember, sameId, Int.le_trans elapsed (Int.le_trans begun goesOn)⟩
  · simp only [Db.deleteSessions, whole.sessions]
    rfl
  · simp only [Db.deleteSessions, whole.sessions, whole.refreshTokens]
    rfl

theorem cleanupOnceAsync_refines (forgets : policy.forgets) (services : Services) :
    Refines policy (cleanupOnceAsync services) := by
  refine .utcNow_bind fun now => ?_
  refine .bind (deleteRefreshTokensAsync_refines forgets services now) fun _ => ?_
  refine .bind (deleteSessionsAsync_refines forgets services now) fun _ => .since ?_ now
  refine .bind (.bind (.query _) fun _ => .ite (.bind ?_ fun _ => .pure _) (.pure _)) fun _ => ?_
  · exact .execute_other (fun _ => rfl) fun _ => rfl
  · refine .bind (.query _) fun _ => .ite (.bind ?_ fun _ => .pure _) (.pure _)
    exact .execute_other (fun _ => rfl) fun _ => rfl

end ExpiredAuthArtifactCleanupService

namespace RefreshTokenService

/-- What a commit writes to a session row, if it only slides or revokes the session. -/
theorem merge_evolves {original current row : Session} (savedAt : Instant)
    (methods : current.authenticationMethods = original.authenticationMethods)
    (expiry : current.absoluteExpiresAt = original.absoluteExpiresAt)
    (revoked : current.revokedAt = original.revokedAt ∨ current.revokedAt ≠ none) :
    row.Evolves (original.merge current savedAt row) := by
  refine ⟨rfl, rfl, ?_, ?_, ?_⟩
  · simp only [Session.merge, methods, changed_self]
  · simp only [Session.merge, expiry, changed_self]
  · intro already
    simp only [Session.merge, changed]
    split
    · exact already
    · exact revoked.resolve_left ‹_›

theorem writtenSessions_evolves {original current : Session} (savedAt : Instant)
    (evolves : ∀ row : Session, row.Evolves (original.merge current savedAt row)) (row : Session) :
    row.Evolves (if (row.id = original.id && current ≠ original : Bool) then
      original.merge current savedAt row else row) := by
  split
  · exact evolves row
  · exact .refl row

theorem slide_evolves (session : Session) (now savedAt : Instant) (row : Session) :
    row.Evolves (session.merge (slide session now) savedAt row) :=
  merge_evolves savedAt rfl rfl (.inl rfl)

theorem revokeForReuse_evolves (session : Session) (now savedAt : Instant) (row : Session) :
    row.Evolves (session.merge (revokeForReuse session now) savedAt row) :=
  merge_evolves savedAt rfl rfl (.inr (by simp [revokeForReuse]))

/-- What a commit leaves of a session. -/
theorem mem_writtenSessions {original current : Session} {savedAt : Instant}
    (evolves : ∀ row : Session, row.Evolves (original.merge current savedAt row))
    {sessions : List Session} {row : Session} (member : row ∈ sessions) :
    ∃ later ∈ writtenSessions original current savedAt sessions, row.Evolves later :=
  ⟨_, Table.mem_updateWhere.mpr ⟨row, member, rfl⟩, writtenSessions_evolves savedAt evolves row⟩

theorem rotationRun_refines {services : Services} {hash : String} {before after : State}
    {outcome : Except AppException RefreshResult}
    (run : RotationRun services hash before outcome after) :
    before.ledger.Run policy after.ledger := by
  cases run with
  | refused _ result refusal leaves =>
      exact .single ⟨leaves.supply, leaves.clock, .kept leaves.sessions leaves.tokens⟩
  | threw _ exception unspent leaves =>
      exact .single ⟨leaves.supply, leaves.clock, .kept leaves.sessions leaves.tokens⟩
  | replayed _ stored session now savedAt found used leaves =>
      have evolves := revokeForReuse_evolves session now savedAt
      exact .single ⟨leaves.supply, leaves.clock, .evolved _
        (fun row _ => writtenSessions_evolves savedAt evolves row) leaves.sessions leaves.tokens⟩
  | rotated _ stored successor session now savedAt access refresh checked successorOf freshHash
      leaves =>
      obtain ⟨member, -, sessionMember, owns⟩ := presented_eq_single checked.found
      have evolves := slide_evolves session now savedAt
      let inserted : RefreshToken := { successor with createdAt := savedAt, updatedAt := savedAt }
      have rotates : before.ledger.Rotates after.ledger stored inserted session now :=
        { member
          owner := sessionMember
          owned := owns.symm
          begun := checked.begun
          unused := checked.accepted.unused
          live := checked.accepted.live
          unexpired := checked.accepted.unexpired
          issued :=
            ⟨successorOf.owner, successorOf.expiry, successorOf.unused, successorOf.unlinked⟩
          fresh := ⟨successorOf.drawn, successorOf.given, freshHash⟩ }
      have spends : RefreshToken.SpentAs now inserted.id stored
          (spentRow stored now savedAt successor.id stored) :=
        { id := rfl
          sessionId := rfl
          tokenHash := spentRow_tokenHash stored
          expiresAt := spentRow_expiresAt stored
          usedAt := spentRow_usedAt checked.accepted.unused stored
          replacedByTokenId := changed_stored _ _ }
      exact .single ⟨leaves.supply, leaves.clock, .rotated stored inserted session now _
        (spentRow stored now savedAt successor.id) rotates
        (fun row _ => writtenSessions_evolves savedAt evolves row) (fun _ => rfl) (fun _ => rfl)
        (fun _ => spentRow_tokenHash _) spends leaves.sessions leaves.tokens⟩

end RefreshTokenService

/-! ### Operations -/

/-- The operations that write sessions or refresh tokens. -/
inductive SessionOperation
  | signIn (http : HttpContext) (userId : Guid) (methods : List AuthenticationMethod)
  | issue (sessionId : Guid)
  | rotate (http : HttpContext) (presentedToken : String)
  | revokeTokens (sessionId : Guid)
  | touch (sessionId : Guid)
  | markReauthenticated (sessionId : Guid)
  | revoke (sessionId : Guid) (reason : SessionRevocationReason)
  | revokeAllForUser (userId : Guid) (exceptSessionId : Option Guid)
      (reason : SessionRevocationReason)
  | revokeOne (http : HttpContext) (userId sessionId : Guid)
  | revokeAllOthers (http : HttpContext) (userId currentSessionId : Guid)
  | logout (http : HttpContext) (userId sessionId : Guid)
  | changePassword (http : HttpContext) (userId currentSessionId : Guid)
      (currentPassword newPassword : String)
  | confirmPasswordReset (http : HttpContext) (token newPassword : String)
  | cleanup

/-- What an operation answers, as far as the results about runs speak of it. -/
inductive SessionResponse
  | signedIn (response : LoginResponse)
  | refreshed (result : RefreshResult)
  | completed
deriving DecidableEq

/-- One operation of a run, with the states before and after it. -/
abbrev SessionRecord := Record SessionOperation Input World Event AppException SessionResponse

def SessionOperation.program (services : Services) : SessionOperation → Action SessionResponse
  | signIn http userId methods => do
      return .signedIn (← AuthenticationSessionFactory.createAsync services http userId methods)
  | issue sessionId => do
      let _ ← RefreshTokenService.issueAsync services sessionId
      return .completed
  | rotate http presentedToken => do
      return .refreshed (← RefreshTokenService.rotateAsync services http presentedToken)
  | revokeTokens sessionId => do
      RefreshTokenService.revokeForSessionAsync sessionId
      return .completed
  | touch sessionId => do
      SessionService.touchAsync sessionId
      return .completed
  | markReauthenticated sessionId => do
      SessionService.markReauthenticatedAsync sessionId
      return .completed
  | revoke sessionId reason => do
      SessionService.revokeAsync sessionId reason
      return .completed
  | revokeAllForUser userId exceptSessionId reason => do
      let _ ← SessionService.revokeAllForUserAsync userId exceptSessionId reason
      return .completed
  | revokeOne http userId sessionId => do
      SessionQueryService.revokeAsync http userId sessionId
      return .completed
  | revokeAllOthers http userId currentSessionId => do
      let _ ← SessionQueryService.revokeAllOthersAsync http userId currentSessionId
      return .completed
  | logout http userId sessionId => do
      LogoutService.logoutAsync http userId sessionId
      return .completed
  | changePassword http userId currentSessionId currentPassword newPassword => do
      UserService.changePasswordAsync services http userId currentSessionId currentPassword
        newPassword
      return .completed
  | confirmPasswordReset http token newPassword => do
      PasswordResetService.confirmAsync services http token newPassword
      return .completed
  | cleanup => do
      ExpiredAuthArtifactCleanupService.cleanupOnceAsync services
      return .completed

theorem rotateAsync_refines (services : Services) (http : HttpContext) (token : String) :
    Refines policy (RefreshTokenService.rotateAsync services http token) := by
  intro call start
  refine Program.wp_mono
    (RefreshTokenService.rotateAsync_uninterrupted services http token call start) ?_
  intro outcome after run
  exact RefreshTokenService.rotationRun_refines run

/-- Every operation makes entries in the ledger and nothing else, if the policy permits to issue
further tokens and to forget rows wherever the operation does. -/
theorem SessionOperation.refines (services : Services) (op : SessionOperation)
    (issues : ∀ sessionId, op = .issue sessionId → ∀ ledger session, policy.issues ledger session)
    (forgets : op = .cleanup → policy.forgets) : Refines policy (op.program services) := by
  cases op with
  | signIn http userId methods =>
      exact .bind (AuthenticationSessionFactory.createAsync_refines services http userId methods)
        fun _ => .pure _
  | issue sessionId =>
      exact .bind (RefreshTokenService.issueAsync_refines (issues sessionId rfl) services sessionId)
        fun _ => .pure _
  | rotate http presentedToken =>
      exact .bind (rotateAsync_refines services http presentedToken) fun _ => .pure _
  | revokeTokens sessionId =>
      exact .bind (RefreshTokenService.revokeForSessionAsync_refines sessionId) fun _ => .pure _
  | touch sessionId => exact .bind (SessionService.touchAsync_refines sessionId) fun _ => .pure _
  | markReauthenticated sessionId =>
      exact .bind (SessionService.markReauthenticatedAsync_refines sessionId) fun _ => .pure _
  | revoke sessionId reason =>
      exact .bind (SessionService.revokeAsync_refines sessionId reason) fun _ => .pure _
  | revokeAllForUser userId exceptSessionId reason =>
      exact .bind (SessionService.revokeAllForUserAsync_refines userId exceptSessionId reason)
        fun _ => .pure _
  | revokeOne http userId sessionId =>
      exact .bind (SessionQueryService.revokeAsync_refines http userId sessionId) fun _ => .pure _
  | revokeAllOthers http userId currentSessionId =>
      exact .bind (SessionQueryService.revokeAllOthersAsync_refines http userId currentSessionId)
        fun _ => .pure _
  | logout http userId sessionId =>
      exact .bind (LogoutService.logoutAsync_refines http userId sessionId) fun _ => .pure _
  | changePassword http userId currentSessionId currentPassword newPassword =>
      exact .bind (UserService.changePasswordAsync_refines services http userId currentSessionId
        currentPassword newPassword) fun _ => .pure _
  | confirmPasswordReset http token newPassword =>
      exact .bind (PasswordResetService.confirmAsync_refines services http token newPassword)
        fun _ => .pure _
  | cleanup =>
      exact .bind
        (ExpiredAuthArtifactCleanupService.cleanupOnceAsync_refines (forgets rfl) services)
        fun _ => .pure _

/-- What the operation that rotates a token has done. -/
theorem rotation_completes {services : Services} {http : HttpContext} {token : String} {call : ℕ}
    {before after : State} {outcome : Except AppException SessionResponse}
    (run : ((SessionOperation.rotate http token).program services).Completes Timely call before
      outcome after) :
    ∃ answer, outcome = Except.map .refreshed answer ∧ RefreshTokenService.RotationRun services
      (services.tokenGenerator.hash token) before answer after := by
  have correct : ((SessionOperation.rotate http token).program services).wp
      (.alone Timely fun _ _ => True) call
      (fun outcome after => ∃ answer, outcome = Except.map .refreshed answer ∧
        RefreshTokenService.RotationRun services (services.tokenGenerator.hash token) before answer
          after) before := by
    refine Program.wp_bind_of
      (RefreshTokenService.rotateAsync_uninterrupted services http token call before) ?_ ?_
    · intro result current rotation
      exact ⟨.ok result, rfl, rotation⟩
    · intro exception current rotation
      exact ⟨.error exception, rfl, rotation⟩
  exact run.post_of_wp correct

/-- Every operation makes entries that the free policy permits. -/
theorem SessionOperation.entered {services : Services} {op : SessionOperation} {call : ℕ}
    {before after : State} {outcome : Except AppException SessionResponse}
    (completes : (op.program services).Completes Timely call before outcome after) :
    Entered .free before after :=
  (op.refines services (fun _ _ _ _ => trivial) fun _ => trivial).of_completes completes

/-- Every run of operations keeps what every entry of the ledger keeps. -/
theorem entered_of_runs {services : Services} {start final : State} {history : List SessionRecord}
    (runs : RunsTo Timely (SessionOperation.program services) start history final) :
    Entered .free start final := by
  induction runs with
  | start => exact .refl
  | snoc earlier op completes inductionHypothesis =>
      exact inductionHypothesis.trans (SessionOperation.entered completes)

end AuthStartpack
