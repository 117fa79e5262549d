import AuthStartpack.Handlers.RecentAuthAuthorizationHandler
import AuthStartpack.Mfa.TotpOperations
import AuthStartpack.Program.Pool
import AuthStartpack.Refresh.Tracking
import AuthStartpack.Services.Auth.LoginService

/-!
Owns the step-up across refreshes. A session keeps the `AuthenticatedAt` of its
creation under sign-ins and rotations, in any interleaving with a clock that does
not go back, and no access token of the session is dated later. So once the
window has elapsed since then, none of them passes the step-up check.
-/

namespace AuthStartpack

/-- Sessions remain, with the instant of their authentication. -/
def SessionsDated (before after : List Session) : Prop :=
  ∀ old ∈ before, ∃ later ∈ after, later.id = old.id ∧ later.authenticatedAt = old.authenticatedAt

/-- What the sign-ins and rotations keep of the sessions. -/
structure DatesKept (before after : List Session) : Prop where
  dated : SessionsDated before after
  keyed : Table.Keyed Session.id before → Table.Keyed Session.id after

/-- What every step of a sign-in or a rotation keeps. -/
structure Dates (before after : State) : Prop where
  clock : before.last.now ≤ after.last.now
  sessions : DatesKept before.store.db.sessions after.store.db.sessions

/-- Any interleaving, with any faults, under a clock that does not go back. -/
def Law.dated : Law Input World Event := .concurrent Onward Dates

namespace DatesKept

theorem refl (sessions : List Session) : DatesKept sessions sessions :=
  ⟨fun old member => ⟨old, member, rfl, rfl⟩, id⟩

theorem trans {first second third : List Session} (early : DatesKept first second)
    (late : DatesKept second third) : DatesKept first third := by
  refine ⟨?_, late.keyed ∘ early.keyed⟩
  intro old member
  obtain ⟨middle, middleMember, sameId, sameDate⟩ := early.dated old member
  obtain ⟨later, laterMember, laterId, laterDate⟩ := late.dated middle middleMember
  exact ⟨later, laterMember, laterId.trans sameId, laterDate.trans sameDate⟩

theorem updateWhere {pred : Session → Bool} {write : Session → Session} {sessions : List Session}
    (keeps : ∀ row, (write row).id = row.id ∧ (write row).authenticatedAt = row.authenticatedAt) :
    DatesKept sessions (Table.updateWhere pred write sessions) := by
  refine ⟨?_, fun keyed => keyed.updateWhere fun row => (keeps row).1⟩
  intro old member
  cases hit : pred old with
  | false => exact ⟨old, Table.mem_updateWhere_of_not member hit, rfl, rfl⟩
  | true => exact ⟨write old, Table.mem_updateWhere_of_hit member hit, keeps old⟩

end DatesKept

namespace Dates

theorem refl (state : State) : Dates state state := ⟨Int.le_refl _, .refl _⟩

theorem trans (first second third : State) (early : Dates first second)
    (late : Dates second third) : Dates first third :=
  ⟨Int.le_trans early.clock late.clock, early.sessions.trans late.sessions⟩

/-- A write under a clock that does not go back. -/
theorem of_write {state : State} {call : ℕ} {input : Input} {events : List Event} {db : Db}
    (onward : state.last.now ≤ input.now) (kept : DatesKept state.store.db.sessions db.sessions) :
    Dates state (state.advance call input ({ state.store with db }, events)) :=
  ⟨onward, kept⟩

end Dates

instance (call : ℕ) : Calm .dated call Dates where
  refl := Dates.refl
  trans := Dates.trans
  rely _ _ relied := relied.1
  quiet state input world onward step := by
    have kept : Dates state (state.advance call input (world, [])) := by
      obtain ⟨auditLogEntries, equal⟩ := step.db
      refine ⟨onward, ?_⟩
      rw [Shared.advance_store, equal]
      exact .refl _
    exact ⟨kept, kept⟩

namespace Keeps

/-- A save that keeps the dates of the sessions. -/
theorem dated_saveChanges {changes : Instant → Db → Except AppException Db}
    {events : Db → List Event}
    (keeps : ∀ now db after, changes now db = .ok after → DatesKept db.sessions after.sessions) :
    Keeps .dated Dates (Action.saveChanges changes events) := by
  refine saveChanges ?_
  intro call start state input db relied saved onward
  have written : Dates state
      (state.advance call input ({ state.store with db }, events state.store.db)) :=
    .of_write onward (keeps _ _ _ saved)
  exact ⟨written, relied.1.trans _ _ _ written⟩

/-- A bulk statement on other tables. -/
theorem dated_execute {count : Db → ℕ} {write : Db → Db} {events : Db → List Event}
    (sessions : ∀ db, (write db).sessions = db.sessions) :
    Keeps .dated Dates (Action.execute count write events) := by
  refine execute ?_
  intro call start state input relied onward
  have written : Dates state (state.advance call input
      ({ state.store with db := write state.store.db }, events state.store.db)) := by
    refine .of_write onward ?_
    rw [sessions]
    exact .refl _
  exact ⟨written, relied.1.trans _ _ _ written⟩

end Keeps

/-! ### Tokens -/

/-- A token that a sign-in issued: its session is stored, and authenticated no earlier. -/
def SignedIn (token : AccessToken) (state : State) : Prop :=
  ∃ session ∈ state.store.db.sessions, session.id = token.sid ∧
    token.authTime ≤ toUnixTimeSeconds session.authenticatedAt

/-- A token that a rotation issued carries the instant of its session. -/
def Refreshed (token : AccessToken) (state : State) : Prop :=
  ∃ session ∈ state.store.db.sessions, session.id = token.sid ∧
    token.authTime = toUnixTimeSeconds session.authenticatedAt

theorem SignedIn.later {token : AccessToken} {before after : State}
    (signedIn : SignedIn token before)
    (kept : Dates before after) : SignedIn token after := by
  obtain ⟨session, member, sameId, dated⟩ := signedIn
  obtain ⟨later, laterMember, laterId, laterDate⟩ := kept.sessions.dated session member
  exact ⟨later, laterMember, laterId.trans sameId, by rwa [laterDate]⟩

theorem Refreshed.later {token : AccessToken} {before after : State}
    (refreshed : Refreshed token before) (kept : Dates before after) : Refreshed token after := by
  obtain ⟨session, member, sameId, dated⟩ := refreshed
  obtain ⟨later, laterMember, laterId, laterDate⟩ := kept.sessions.dated session member
  exact ⟨later, laterMember, laterId.trans sameId, by rwa [laterDate]⟩

theorem toUnixTimeSeconds_mono {first second : Instant} (order : first ≤ second) :
    toUnixTimeSeconds first ≤ toUnixTimeSeconds second :=
  Int.ediv_le_ediv (by decide) order

/-- The seconds of an instant are not later than the instant. -/
theorem toUnixTimeSeconds_mul_le (instant : Instant) :
    toUnixTimeSeconds instant * ticksPerSecond ≤ instant :=
  Int.ediv_mul_le instant (by decide)

/-! ### Rotations -/

/-- A call of `RotateAsync` goes on from this state with this tracker. -/
structure TracksDates (tracker : ChangeTracker) (state : State) : Prop where
  keyed : Table.Keyed Session.id state.store.db.sessions
  unchanged : ∀ entry ∈ tracker.sessions, entry.state = .unchanged ∧
    entry.current.authenticatedAt = entry.original.authenticatedAt
  stored : ∀ entry ∈ tracker.sessions, ∃ row ∈ state.store.db.sessions,
    row.id = entry.current.id ∧ row.authenticatedAt = entry.current.authenticatedAt

namespace TracksDates

variable {tracker : ChangeTracker} {state : State}

theorem later (tracks : TracksDates tracker state) {after : State} (kept : Dates state after) :
    TracksDates tracker after := by
  refine ⟨kept.sessions.keyed tracks.keyed, tracks.unchanged, ?_⟩
  intro entry member
  obtain ⟨row, rowMember, sameId, sameDate⟩ := tracks.stored entry member
  obtain ⟨later, laterMember, laterId, laterDate⟩ := kept.sessions.dated row rowMember
  exact ⟨later, laterMember, laterId.trans sameId, laterDate.trans sameDate⟩

theorem resolve (tracks : TracksDates tracker state) (token : RefreshToken) {session : Session}
    (sessionMember : session ∈ state.store.db.sessions) :
    TracksDates (tracker.resolve token session) state := by
  refine ⟨tracks.keyed, ?_, ?_⟩
  · intro entry member
    rcases Tracked.mem_resolve member with old | rfl
    · exact tracks.unchanged entry old
    · exact ⟨rfl, rfl⟩
  · intro entry member
    rcases Tracked.mem_resolve member with old | rfl
    · exact tracks.stored entry old
    · exact ⟨session, sessionMember, rfl, rfl⟩

/-- Assigning other columns to a tracked session. -/
theorem assignSession (tracks : TracksDates tracker state) {session assigned : Session}
    (instances : ∃ entry ∈ tracker.sessions, entry.current = session)
    (sameId : assigned.id = session.id)
    (sameDate : assigned.authenticatedAt = session.authenticatedAt) :
    TracksDates (tracker.assignSession assigned) state := by
  obtain ⟨own, ownMember, rfl⟩ := instances
  obtain ⟨stored, storedMember, storedId, storedDate⟩ := tracks.stored own ownMember
  refine ⟨tracks.keyed, ?_, ?_⟩
  · intro entry member
    rcases Tracked.mem_assign member with ⟨old, -⟩ | ⟨old, oldMember, hit, rfl⟩
    · exact tracks.unchanged entry old
    · obtain ⟨unmodified, date⟩ := tracks.unchanged old oldMember
      obtain ⟨row, rowMember, rowId, rowDate⟩ := tracks.stored old oldMember
      have hitId : old.current.id = own.current.id := Eq.trans hit sameId
      have same : row = stored := tracks.keyed.eq_of_key rowMember storedMember
        ((rowId.trans hitId).trans storedId.symm)
      refine ⟨unmodified, ?_⟩
      calc assigned.authenticatedAt = own.current.authenticatedAt := sameDate
        _ = stored.authenticatedAt := storedDate.symm
        _ = old.current.authenticatedAt := by rw [← same, rowDate]
        _ = old.original.authenticatedAt := date
  · intro entry member
    rcases Tracked.mem_assign member with ⟨old, -⟩ | ⟨old, oldMember, hit, rfl⟩
    · exact tracks.stored entry old
    · exact ⟨stored, storedMember, storedId.trans sameId.symm, storedDate.trans sameDate.symm⟩

theorem acceptAllChanges (tracks : TracksDates tracker state) :
    TracksDates tracker.acceptAllChanges state := by
  refine ⟨tracks.keyed, ?_, ?_⟩
  · intro entry member
    obtain ⟨old, -, rfl⟩ := List.mem_map.mp member
    exact ⟨rfl, rfl⟩
  · intro entry member
    obtain ⟨old, oldMember, rfl⟩ := List.mem_map.mp member
    exact tracks.stored old oldMember

/-- A save of the tracked entities. -/
theorem changes_keeps (tracks : TracksDates tracker state) {savedAt : Instant} {db after : Db}
    (saved : tracker.changes savedAt db = .ok after) : DatesKept db.sessions after.sessions := by
  obtain ⟨middle, sessionsSaved, tokensSaved⟩ := bind_eq_ok.mp saved
  let Kept (before after : Db) : Prop := DatesKept before.sessions after.sessions
  have sessions : Kept db middle := by
    refine foldlM_relates (fun _ => .refl _) .trans ?_ sessionsSaved
    intro entry member before after statement
    obtain ⟨unmodified, date⟩ := tracks.unchanged entry member
    rw [ChangeTracker.saveSession, unmodified] at statement
    obtain ⟨-, rfl⟩ := Db.updateSession_eq_ok.mp statement
    refine .updateWhere ?_
    intro row
    simp [Session.merge, date]
  have tokens : Kept middle after := by
    refine foldlM_relates (fun _ => .refl _) .trans ?_ tokensSaved
    intro entry member before after statement
    unfold ChangeTracker.saveToken at statement
    split at statement
    · obtain ⟨-, rfl⟩ := Db.insertRefreshToken_eq_ok.mp statement
      exact .refl _
    · obtain ⟨-, rfl⟩ := Db.updateRefreshToken_eq_ok.mp statement
      exact .refl _
  exact DatesKept.trans sessions tokens

end TracksDates

/-- A rotation answers with a token that carries the instant of its session. -/
def AnswersRefreshed : Except AppException RefreshResult → State → Prop
  | .ok result, later => ∀ access, result.accessToken = some access → Refreshed access.value later
  | .error _, _ => True

namespace RefreshTokenService

section Rules

variable {services : Services} {http : HttpContext} {call : ℕ} {hash : String}
variable {tracker : ChangeTracker} {state : State}

/-- What one run of the delegate may end with. -/
abbrev EndsDated :
    Except AppException (Attempt ChangeTracker RefreshResult) → State → Prop :=
  Action.retrying TracksDates AnswersRefreshed

theorem transaction_dated {now : Instant} {event : Event} {results : RefreshResult → Prop}
    (tracks : TracksDates tracker state)
    (reported : ∀ result later, results result → Dates state later →
      AnswersRefreshed (.ok result) later) :
    Transaction .dated call Dates state tracker now event results EndsDated := by
  constructor
  case saveFailed =>
    intro current input reached _ onward
    have failed : Dates current (current.advance call input (current.store, [.saveFailed])) :=
      .of_write onward (.refl _)
    exact ⟨failed, (tracks.later reached).later failed⟩
  case commitFailed =>
    intro current input reached _ onward
    have failed : Dates current (current.advance call input (current.store, [.commitFailed now])) :=
      .of_write onward (.refl _)
    exact ⟨failed, (tracks.later reached).acceptAllChanges.later failed⟩
  case committed =>
    intro current input savedAt db reached onward saved
    have written :
        Dates current (current.advance call input ({ current.store with db }, [event])) :=
      .of_write onward (tracks.changes_keeps saved)
    refine ⟨written, ?_⟩
    intro result later answered rests
    exact reported result later answered ((reached.trans _ _ _ written).trans _ _ _ rests)
  case refused =>
    intro _ _ _ _ _ _ _
    trivial

theorem rotate_dated {stored : RefreshToken} {session : Session} {now : Instant}
    (tracks : TracksDates tracker state)
    (instances : ∃ entry ∈ tracker.sessions, entry.current = session) :
    (rotate services http tracker stored session now).wp .dated call EndsDated state := by
  refine wp_rotate (K := Dates) inferInstance ?_ fun _ _ _ _ => trivial
  intro drawn ready successor draw readied
  have reached := tracks.later (draw.reached.trans _ _ _ readied)
  have tracked :
      TracksDates ((tracker.assignToken (spend stored now successor.id)).addToken successor)
      ready := ⟨reached.keyed, reached.unchanged, reached.stored⟩
  obtain ⟨own, ownMember, rfl⟩ := instances
  refine transaction_dated (tracked.assignSession ⟨own, ownMember, rfl⟩ rfl rfl) ?_
  rintro _ later ⟨access, refresh, carries, rfl⟩ rests issued equal
  obtain rfl : access = issued := Option.some.inj equal
  obtain ⟨row, rowMember, sameId, sameDate⟩ := reached.stored own ownMember
  have refreshed : Refreshed access.value ready :=
    ⟨row, rowMember, sameId.trans carries.sid.symm, by rw [carries.authTime, sameDate]⟩
  exact refreshed.later rests

theorem judge_dated {stored : RefreshToken} {session : Session} {now : Instant}
    (tracks : TracksDates tracker state)
    (instances : ∃ entry ∈ tracker.sessions, entry.current = session) :
    (judge services http tracker stored session now).wp .dated call EndsDated state := by
  have failure : ∀ outcome later, EndsDated
      (.ok (.completed (.failure outcome (some session.id)))) later := by
    intro outcome later access equal
    cases equal
  unfold judge
  split
  case isTrue =>
    refine wp_revokeReplayed (K := Dates) inferInstance ?_
    refine transaction_dated (tracks.assignSession instances rfl rfl) ?_
    rintro _ later rfl _ access equal
    cases equal
  split
  case isTrue => exact failure _ _
  split
  case isTrue => exact failure _ _
  split
  case isTrue => exact failure _ _
  split
  case isTrue => exact failure _ _
  simp only [Program.wp_bind]
  refine Action.calm_queryOrThrow (K := Dates) inferInstance ?_
  intro stamped stamp
  cases Action.single ((stamped.store.db.users.filter (·.id = session.userId)).map
      (·.securityStamp)) with
  | error exception => trivial
  | ok currentStamp =>
      simp only [Program.andThen_ok]
      split
      case isTrue => exact failure _ _
      exact rotate_dated (tracks.later stamp) instances

theorem attempt_dated (tracks : TracksDates tracker state) :
    (attempt services http hash tracker).wp .dated call EndsDated state := by
  simp only [attempt, Program.wp_bind]
  refine Action.calm_queryOrThrow (K := Dates) inferInstance ?_
  intro seen see
  cases found : presented hash seen.store.db with
  | nil =>
      intro access equal
      cases equal
  | cons head tail =>
      obtain ⟨tokenRow, sessionRow⟩ := head
      cases tail with
      | cons other others => trivial
      | nil =>
          obtain ⟨-, -, sessionMember, -⟩ := presented_eq_single found
          simp only [Action.singleOrDefault, Program.andThen_ok, Program.wp_bind]
          refine Action.calm_utcNow (K := Dates) inferInstance ?_
          intro read reading
          have resolved := ((tracks.later see).resolve tokenRow sessionMember).later reading
          exact judge_dated resolved Tracked.tracked_instanceOf

theorem rotateAsync_dated {token : String}
    (keyed : Table.Keyed Session.id state.store.db.sessions) :
    (rotateAsync services http token).wp .dated call AnswersRefreshed state := by
  have starting : TracksDates {} state :=
    { keyed
      unchanged := fun _ member => absurd member List.not_mem_nil
      stored := fun _ member => absurd member List.not_mem_nil }
  refine Action.wp_executionStrategy ?_ ?_ starting
  · intro tracked current tracks
    exact attempt_dated tracks
  · intro _ _ _
    trivial

end Rules

end RefreshTokenService

/-! ### Sign-ins -/

/-- A session with this id is stored, authenticated no earlier than the state. -/
theorem SessionService.createAsync_dated (services : Services) (request : NewSessionRequest)
    (call : ℕ) (start : State) :
    (createAsync services request).wp .dated call
      (fun outcome after => Dates start after ∧ ∀ id, outcome = .ok id →
        ∃ session ∈ after.store.db.sessions, session.id = id ∧
          start.last.now ≤ session.authenticatedAt) start := by
  have calm : Calm .dated call Dates := inferInstance
  simp only [createAsync, Program.wp_bind]
  refine Action.calm_utcNow calm ?_
  intro read reading
  simp only [Program.andThen_ok, Program.wp_bind]
  refine Action.calm_queryOrThrow calm ?_
  intro stamped stamp
  have reached := reading.trans _ _ _ stamp
  cases Action.single ((stamped.store.db.users.filter (·.id = request.userId)).map
      (·.securityStamp)) with
  | error exception => exact ⟨reached, by rintro _ ⟨⟩⟩
  | ok securityStamp =>
  simp only [Program.andThen_ok, Program.wp_bind]
  refine Action.calm_draw calm ?_
  intro earlier drawn before drew _
  have whole := reached.trans _ _ _ (before.trans _ _ _ drew)
  simp only [Program.andThen_ok, Program.wp_bind]
  refine Action.wp_saveChanges calm ?_ ?_
  · intro current input db later saved onward
    obtain ⟨⟨fresh, -⟩, rfl⟩ := Db.insertSession_eq_ok.mp saved
    have kept : Dates current (current.advance call input ({ current.store with
        db := { current.store.db with sessions := current.store.db.sessions ++
          [{ newSession services request earlier.store.supply securityStamp read.last.now with
            createdAt := input.now, updatedAt := input.now }] } }, [])) := by
      refine .of_write onward ⟨?_, fun keyed => keyed.append fresh⟩
      intro old member
      exact ⟨old, List.mem_append_left _ member, rfl, rfl⟩
    refine ⟨kept, (whole.trans _ _ _ later).trans _ _ _ kept, ?_⟩
    rintro id ⟨⟩
    exact ⟨_, List.mem_append_right _ List.mem_cons_self, rfl, reading.clock⟩
  · intro current after exception now later rests _
    exact ⟨(whole.trans _ _ _ later).trans _ _ _ rests, by rintro _ ⟨⟩⟩

theorem RefreshTokenService.issueAsync_dated (services : Services) (sessionId : Guid) :
    Keeps .dated Dates (issueAsync services sessionId) := by
  apply Keeps.bind (.queryOrThrow _)
  intro session
  apply Keeps.bind
  · exact .bind .draw fun _ => .bind .draw fun _ => .pure _
  intro issued
  apply Keeps.bind
  · refine .dated_saveChanges ?_
    intro now db after saved
    obtain ⟨-, rfl⟩ := Db.insertRefreshToken_eq_ok.mp saved
    exact .refl _
  intro _
  exact .pure _

/-- The access token of a sign-in is dated no later than its session. -/
theorem AuthenticationSessionFactory.createAsync_yields (services : Services) (http : HttpContext)
    (userId : Guid) (methods : List AuthenticationMethod) :
    Yields .dated Dates (fun response state => SignedIn response.accessToken state)
      (createAsync services http userId methods) := by
  refine .bind (.queryOrThrow _) fun user => .bind (.query _) fun roles => ?_
  intro call start
  have calm : Calm .dated call Dates := inferInstance
  rw [Program.wp_bind]
  refine Action.calm_utcNow calm ?_
  intro read reading
  rw [Program.andThen_ok]
  refine Program.wp_bind_of (SessionService.createAsync_dated services _ call read) ?_ ?_
  case refine_2 =>
    rintro exception current ⟨created, -⟩
    exact ⟨reading.trans _ _ _ created, fun _ impossible => nomatch impossible⟩
  rintro sessionId created ⟨create, stored⟩
  refine Program.wp_bind_of
    (RefreshTokenService.issueAsync_dated services sessionId call created) ?_ ?_
  case refine_2 =>
    intro exception current issued
    exact ⟨(reading.trans _ _ _ create).trans _ _ _ issued, fun _ impossible => nomatch impossible⟩
  intro refresh issued issue
  rw [Program.wp_bind]
  refine AccessTokenIssuer.wp_issueAsync calm ?_
  intro access signed grants sign
  refine ⟨((reading.trans _ _ _ create).trans _ _ _ issue).trans _ _ _ sign, ?_⟩
  rintro _ ⟨⟩
  obtain ⟨session, member, sameId, dated⟩ := stored sessionId rfl
  have signedIn : SignedIn access.value created := by
    refine ⟨session, member, sameId.trans grants.sid.symm, ?_⟩
    rw [grants.authTime]
    exact toUnixTimeSeconds_mono dated
  exact (signedIn.later issue).later sign

theorem VerificationTokens.store_dated (services : Services) (userId : Option Guid)
    (type : VerificationTokenType) (lifetime : Duration) :
    Keeps .dated Dates (store services userId type lifetime) := by
  apply Keeps.bind .draw
  intro drawn
  apply Keeps.bind .utcNow
  intro now
  apply Keeps.bind .draw
  intro _
  apply Keeps.bind
  · refine .dated_saveChanges ?_
    intro now db after saved
    obtain ⟨verificationTokens, rfl⟩ := Db.insertVerificationToken_ok saved
    exact .refl _
  intro _
  exact .pure _

theorem VerificationTokens.consume_dated (hash : String) (type : VerificationTokenType)
    (now : Instant)
    (requires : VerificationToken → Bool) (consumer : TokenConsumer) :
    Keeps .dated Dates (consume hash type now requires consumer) := by
  unfold consume
  apply Keeps.dated_execute
  intro db
  rfl

theorem MfaTicketService.consumeAsync_dated (services : Services) (ticket : String) :
    Keeps .dated Dates (consumeAsync services ticket) := by
  apply Keeps.bind .utcNow
  intro now
  apply Keeps.bind (VerificationTokens.consume_dated _ _ _ _ _)
  intro _
  exact .ite (.pure _) (.queryOrThrow _)

theorem TotpService.verifyAsync_dated (services : Services) (userId : Guid) (code : String) :
    Keeps .dated Dates (verifyAsync services userId code) := by
  refine .bind (.queryOrThrow _) fun found => ?_
  cases found with
  | none => exact .pure _
  | some credential =>
  refine .bind ?_ fun answered => ?_
  · exact .bind (.orThrow _ _) fun _ => .bind .utcNow fun _ => .pure _
  cases answered with
  | some timeStep =>
      exact .bind .utcNow fun _ => .bind (.dated_execute fun _ => rfl) fun _ => .pure _
  | none =>
      refine .bind (.query _) fun recoveryCodes => ?_
      split
      case h_1 => exact .pure _
      case h_2 =>
        refine .bind .utcNow fun _ => .bind (.dated_saveChanges ?_) fun _ => .pure _
        intro now db after saved
        obtain ⟨codes, rfl⟩ := Db.updateRecoveryCode_ok saved
        exact .refl _

namespace LoginService

variable (services : Services) (http : HttpContext)

theorem updateUser_dated (original current : User) (events : Db → List Event) :
    Keeps .dated Dates
      (Action.saveChanges (fun now db => db.updateUser now original current) events) := by
  refine .dated_saveChanges ?_
  intro now db after saved
  obtain ⟨users, rfl⟩ := Db.updateUser_ok saved
  exact .refl _

theorem rejectAsync_yields {α : Type} (good : α → State → Prop) (user : Option User)
    (alreadyLocked : Bool) :
      Yields .dated Dates good (rejectAsync services http user alreadyLocked) := by
  have counted : ∀ user, Keeps .dated Dates (countFailure services http user) := fun user =>
    .bind .utcNow fun _ => .bind (updateUser_dated _ _ _) fun _ => .ite (.logAsync _ _ _) (.pure _)
  unfold rejectAsync
  split
  · exact .bind (counted _) fun _ => .bind (.logAsync _ _ _) fun _ => .throw _
  · exact .bind (.logAsync _ _ _) fun _ => .throw _

/-- What a sign-in with a password may answer. -/
def Completes (result : LoginResult) (state : State) : Prop :=
  ∀ response, result = .completed response → SignedIn response.accessToken state

theorem acceptAsync_yields (user : User) (credential : Option TotpCredential)
    (password passwordHash : String) :
    Yields .dated Dates Completes
      (acceptAsync services http user credential password passwordHash) := by
  unfold acceptAsync
  extract_lets cleared accepted
  have saved : ∀ current, Yields .dated Dates Completes (accepted current) := by
    intro current
    refine .bind (updateUser_dated _ _ _) fun _ => ?_
    refine .ite ?_ ?_
    · refine .bind (VerificationTokens.store_dated _ _ _ _) fun _ => ?_
      refine .bind (.logAsync _ _ _) fun _ => .pure ?_
      intro state response impossible
      cases impossible
    · refine .report (AuthenticationSessionFactory.createAsync_yields services http user.id _)
        (fun _ => .logAsync _ _ _) ?_
      rintro response before after signedIn kept _ ⟨⟩
      exact signedIn.later kept
  exact .ite (.bind .draw fun _ => .bind (.pure _) fun _ => saved _)
    (.bind (.pure _) fun _ => saved _)

theorem loginAsync_yields (email password : String) :
    Yields .dated Dates Completes (loginAsync services http email password) := by
  refine .bind (.queryOrThrow _) fun found => .bind .utcNow fun now => ?_
  cases found with
  | none => exact rejectAsync_yields services http _ _ _
  | some account =>
      obtain ⟨user, credential⟩ := account
      simp only
      split
      · exact rejectAsync_yields services http _ _ _
      · exact .ite (rejectAsync_yields services http _ _ _)
          (acceptAsync_yields services http _ _ _ _)

theorem completeMfaAsync_yields (mfaTicket code : String) :
    Yields .dated Dates (fun response state => SignedIn response.accessToken state)
      (completeMfaAsync services http mfaTicket code) := by
  have failure :
      ∀ userId, Yields .dated Dates (fun response state => SignedIn response.accessToken state)
      (mfaFailureAsync http userId : Action LoginResponse) :=
    fun userId => .bind (.logAsync _ _ _) fun _ => .throw _
  refine .bind (MfaTicketService.consumeAsync_dated services mfaTicket) fun consumed => ?_
  cases consumed with
  | none => exact failure none
  | some userId =>
  refine .bind (TotpService.verifyAsync_dated services userId code) fun verified => ?_
  cases verified with
  | none => exact failure _
  | some method =>
      refine .report (AuthenticationSessionFactory.createAsync_yields services http userId _)
        (fun _ => .logAsync _ _ _) ?_
      intro response before after signedIn kept
      exact signedIn.later kept

end LoginService

/-! ### Concurrent operations -/

/-- The operations that issue access tokens. Every other sign-in ends as `signIn` does. -/
inductive AuthenticationOperation
  | login (http : HttpContext) (email password : String)
  | completeMfa (http : HttpContext) (mfaTicket code : String)
  | signIn (http : HttpContext) (userId : Guid) (methods : List AuthenticationMethod)
  | refresh (http : HttpContext) (presentedToken : String)

inductive AuthenticationResponse
  | loggedIn (result : LoginResult)
  | signedIn (response : LoginResponse)
  | refreshed (result : RefreshResult)

namespace AuthenticationResponse

def accessToken? : AuthenticationResponse → Option AccessToken
  | loggedIn (.completed response) => some response.accessToken
  | loggedIn (.mfaRequired _) => none
  | signedIn response => some response.accessToken
  | refreshed result => result.accessToken.map (·.value)

def isRefresh : AuthenticationResponse → Bool
  | refreshed _ => true
  | loggedIn _ | signedIn _ => false

end AuthenticationResponse

def AuthenticationOperation.program (services : Services) :
    AuthenticationOperation → Action AuthenticationResponse
  | login http email password => do
      return .loggedIn (← LoginService.loginAsync services http email password)
  | completeMfa http mfaTicket code => do
      return .signedIn (← LoginService.completeMfaAsync services http mfaTicket code)
  | signIn http userId methods => do
      return .signedIn (← AuthenticationSessionFactory.createAsync services http userId methods)
  | refresh http presentedToken => do
      return .refreshed (← RefreshTokenService.rotateAsync services http presentedToken)

/-- The access token of an answer belongs to a stored session, and a rotated one carries the
instant of it. -/
def Issues : Except AppException AuthenticationResponse → State → Prop
  | .ok response, state => ∀ token, response.accessToken? = some token →
      SignedIn token state ∧ (response.isRefresh = true → Refreshed token state)
  | .error _, _ => True

theorem Issues.later {outcome : Except AppException AuthenticationResponse} {before after : State}
    (issues : Issues outcome before) (kept : Dates before after) : Issues outcome after := by
  cases outcome with
  | error exception => trivial
  | ok response =>
      intro token answered
      obtain ⟨signedIn, refreshed⟩ := issues token answered
      exact ⟨signedIn.later kept, fun rotated => (refreshed rotated).later kept⟩

theorem Refreshed.signedIn {token : AccessToken} {state : State}
    (refreshed : Refreshed token state) :
    SignedIn token state := by
  obtain ⟨session, member, sameId, dated⟩ := refreshed
  exact ⟨session, member, sameId, Int.le_of_eq dated⟩

theorem Yields.issues {α : Type} {good : α → State → Prop} {program : Action α}
    {wrap : α → AuthenticationResponse} (yields : Yields .dated Dates good program)
    (holds : ∀ value state, good value state → Issues (.ok (wrap value)) state) (call : ℕ)
    (start : State) :
    (program >>= fun value => Pure.pure (wrap value)).wp .dated call Issues start := by
  refine Program.wp_bind_of (yields call start) ?_ ?_
  · rintro value current ⟨-, made⟩
    exact holds value current (made value rfl)
  · intro _ _ _
    trivial

theorem AuthenticationOperation.issues (services : Services) (op : AuthenticationOperation)
    (call : ℕ) {start : State} (keyed : Table.Keyed Session.id start.store.db.sessions) :
    (op.program services).wp .dated call Issues start := by
  cases op with
  | login http email password =>
      refine (LoginService.loginAsync_yields services http email password).issues ?_ call start
      intro result state completes token answered
      cases result with
      | mfaRequired challenge => cases answered
      | completed response =>
          cases answered
          exact ⟨completes response rfl, fun impossible => nomatch impossible⟩
  | completeMfa http mfaTicket code =>
      refine (LoginService.completeMfaAsync_yields services http mfaTicket code).issues
        ?_ call start
      rintro response state signedIn token ⟨⟩
      exact ⟨signedIn, fun impossible => nomatch impossible⟩
  | signIn http userId methods =>
      refine (AuthenticationSessionFactory.createAsync_yields services http userId methods).issues
        ?_
        call start
      rintro response state signedIn token ⟨⟩
      exact ⟨signedIn, fun impossible => nomatch impossible⟩
  | refresh http presentedToken =>
      refine Program.wp_bind_of (RefreshTokenService.rotateAsync_dated keyed) ?_ ?_
      · intro result state refreshed token answered
        obtain ⟨access, issued, rfl⟩ := Option.map_eq_some_iff.mp answered
        have carried := refreshed access issued
        exact ⟨carried.signedIn, fun _ => carried⟩
      · intro _ _ _
        trivial

abbrev AuthenticationPool := Pool Input World Event AppException AuthenticationResponse

/-- Operations that have not begun. -/
def authenticating (services : Services) (operations : List AuthenticationOperation)
    (start : State) : AuthenticationPool where
  shared := start
  calls := operations.map (·.program services)

/-- What holds after a run: no token is recent once the window has elapsed since its session was
authenticated, a rotated one is dated as its session, which is dated as when it was created, and
without `auth_time` nobody is recent. -/
structure NotLaundered (options : AuthSessionOptions) (pool : AuthenticationPool)
    (schedule : List (ℕ × Input)) : Prop where
  stale : ∀ call response token, (pool.run schedule).outcome? call = some (.ok response) →
    response.accessToken? = some token →
    ∃ session ∈ (pool.run schedule).shared.store.db.sessions, session.id = token.sid ∧
      (response.isRefresh = true → token.authTime = toUnixTimeSeconds session.authenticatedAt) ∧
      ∀ now, session.authenticatedAt + options.recentAuthenticationWindow ≤ now →
        RecentAuthAuthorizationHandler.handleRequirementAsync options now token.principal = false
  only : Table.Keyed Session.id (pool.run schedule).shared.store.db.sessions
  created : ∀ before after, schedule = before ++ after →
    SessionsDated (pool.run before).shared.store.db.sessions
      (pool.run schedule).shared.store.db.sessions
  keyless : ∀ (user : ClaimsPrincipal) now,
    user.findFirst RecentAuthAuthorizationHandler.authTimeClaimType = none →
    RecentAuthAuthorizationHandler.handleRequirementAsync options now user = false
  apiKeys : ∀ key roles now, RecentAuthAuthorizationHandler.handleRequirementAsync options now
    (ApiKeyAuthenticationHandler.principal key roles) = false

/-- A token dated no later than its session is not recent once the window has elapsed. -/
theorem not_recent_of_dated {options : AuthSessionOptions} {token : AccessToken}
    {authenticatedAt now : Instant} (dated : token.authTime ≤ toUnixTimeSeconds authenticatedAt)
    (elapsed : authenticatedAt + options.recentAuthenticationWindow ≤ now) :
    RecentAuthAuthorizationHandler.handleRequirementAsync options now token.principal = false := by
  rw [Bool.eq_false_iff]
  intro succeeds
  obtain ⟨-, recent⟩ := RecentAuthAuthorizationHandler.recent_of_accessToken succeeds
  have start : token.authTime * ticksPerSecond ≤ authenticatedAt :=
    calc token.authTime * ticksPerSecond
        ≤ toUnixTimeSeconds authenticatedAt * ticksPerSecond :=
          Int.mul_le_mul_of_nonneg_right dated (by decide)
      _ ≤ authenticatedAt := toUnixTimeSeconds_mul_le _
  have window := Int.add_le_add_right start options.recentAuthenticationWindow
  exact absurd (Int.lt_of_lt_of_le recent window) (Int.not_lt.mpr elapsed)

/-- Step-up survives no refresh. -/
theorem stepUp_not_laundered {services : Services} {operations : List AuthenticationOperation}
    {start : State} (keyed : Table.Keyed Session.id start.store.db.sessions)
    {schedule : List (ℕ × Input)}
    (onward : (authenticating services operations start).Admitted Onward schedule) :
    NotLaundered services.sessionOptions (authenticating services operations start) schedule := by
  have verified : (authenticating services operations start).Verified Onward Dates
      fun _ => Issues := by
    refine Pool.verified_of_wp Dates.refl ?_
    intro call program found
    simp only [authenticating, List.getElem?_map, Option.map_eq_some_iff] at found
    obtain ⟨op, -, rfl⟩ := found
    exact op.issues services call keyed
  obtain ⟨kept, ended⟩ := Pool.run_wp Dates.refl Dates.trans verified onward
  constructor
  case stale =>
    intro call response token finished answered
    obtain ⟨earlier, rest, -, issues⟩ := ended.outcome finished
    obtain ⟨⟨session, member, sameId, dated⟩, refreshed⟩ := (issues.later rest) token answered
    refine ⟨session, member, sameId, ?_, fun now => not_recent_of_dated dated⟩
    intro rotated
    obtain ⟨other, otherMember, otherId, carried⟩ := refreshed rotated
    have same : other = session := (kept.sessions.keyed keyed).eq_of_key otherMember member
      (otherId.trans sameId.symm)
    rw [carried, same]
  case only => exact kept.sessions.keyed keyed
  case created =>
    rintro before after rfl
    obtain ⟨first, second⟩ := Pool.admitted_append.mp onward
    obtain ⟨-, running⟩ := Pool.run_wp Dates.refl Dates.trans verified first
    obtain ⟨later, -⟩ := Pool.run_wp Dates.refl Dates.trans running second
    rw [Pool.run_append]
    exact later.sessions.dated
  case keyless =>
    intro user now absent
    exact RecentAuthAuthorizationHandler.denied_without_authTime absent
  case apiKeys =>
    intro key roles now
    exact RecentAuthAuthorizationHandler.denied_without_authTime
      (RecentAuthAuthorizationHandler.apiKey_without_authTime key roles)

/-- A user with a password. -/
def passwordWorld : World where
  db :=
    { users :=
        [{ id := 1
           email := "ada@example.test"
           emailVerified := true
           passwordHash := some "$correct-horse"
           securityStamp := 7 }] }
  supply := 2

/-- A sign-in and a rotation of its refresh token. -/
def signInThenRefresh : AuthenticationPool :=
  authenticating .sample
    [.login {} "ada@example.test" "correct-horse", .refresh {} "ttt"]
    (Shared.initial passwordWorld ⟨90, false⟩)

def oneThenTheOther : List (ℕ × Input) :=
  List.replicate 19 (0, ⟨90, false⟩) ++ List.replicate 15 (1, ⟨95, false⟩)

set_option maxRecDepth 40000 in
theorem stepUp_not_laundered_sample :
    (signInThenRefresh.run oneThenTheOther).shared.store.db.sessions.map (·.lastActiveAt) = [95] ∧
      NotLaundered Services.sample.sessionOptions signInThenRefresh oneThenTheOther :=
  ⟨by decide, stepUp_not_laundered (by decide) (Pool.admitted_of_admitted? (by decide))⟩

end AuthStartpack
