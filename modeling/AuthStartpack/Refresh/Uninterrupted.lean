import AuthStartpack.Refresh.Rotation

/-!
Owns what one uninterrupted, faultless `RotateAsync` does: it refuses and leaves
everything, revokes the session of a spent token, or spends a token that passed
every check and stores its successor.
-/

namespace AuthStartpack

namespace RefreshTokenService

/-- What a rotation that succeeded has checked, by the rows it found. -/
structure Checked (services : Services) (hash : String) (before after : State)
    (stored : RefreshToken) (session : Session) (now : Instant) : Prop where
  found : presented hash before.store.db = [(stored, session)]
  accepted : Accepted services stored session now
  stamp : StampCurrent session before.store.db
  begun : before.last.now ≤ now
  ended : now ≤ after.last.now

/-- A refresh token as a rotation stores it. -/
structure Successor (services : Services) (before after : State) (session : Session)
    (successor : RefreshToken) : Prop where
  drawn : before.store.supply ≤ successor.id
  given : successor.id < after.store.supply
  owner : successor.sessionId = session.id
  expiry : successor.expiresAt = session.absoluteExpiresAt
  unused : successor.usedAt = none
  unlinked : successor.replacedByTokenId = none

/-- The tables of sessions and refresh tokens afterwards, with time gone on. -/
structure Leaves (before after : State) (sessions : List Session) (tokens : List RefreshToken) :
    Prop where
  sessions : after.store.db.sessions = sessions
  tokens : after.store.db.refreshTokens = tokens
  supply : before.store.supply ≤ after.store.supply
  clock : before.last.now ≤ after.last.now

/-- What `RotateAsync` of a token with this hash does when nothing interrupts it. -/
inductive RotationRun (services : Services) (hash : String) (before : State) :
    Except AppException RefreshResult → State → Prop
  | refused (after : State) (result : RefreshResult) (refusal : Refusal hash before.store.db result)
      (leaves : Leaves before after before.store.db.sessions before.store.db.refreshTokens) :
      RotationRun services hash before (.ok result) after
  | threw (after : State) (exception : AppException)
      (unspent : ∀ stored session, presented hash before.store.db = [(stored, session)] →
        stored.usedAt = none)
      (leaves : Leaves before after before.store.db.sessions before.store.db.refreshTokens) :
      RotationRun services hash before (.error exception) after
  | replayed (after : State) (stored : RefreshToken) (session : Session) (now savedAt : Instant)
      (found : presented hash before.store.db = [(stored, session)]) (used : stored.usedAt ≠ none)
      (leaves : Leaves before after
        (writtenSessions session (revokeForReuse session now) savedAt before.store.db.sessions)
        before.store.db.refreshTokens) :
      RotationRun services hash before (.ok (.failure .reuseDetected (some session.id))) after
  | rotated (after : State) (stored successor : RefreshToken) (session : Session)
      (now savedAt : Instant) (access : IssuedAccessToken) (refresh : IssuedRefreshToken)
      (checked : Checked services hash before after stored session now)
      (successorOf : Successor services before after session successor)
      (freshHash : ∀ row ∈ before.store.db.refreshTokens, row.tokenHash ≠ successor.tokenHash)
      (leaves : Leaves before after
        (writtenSessions session (slide session now) savedAt before.store.db.sessions)
        (rotatedTokens stored successor now savedAt before.store.db.refreshTokens)) :
      RotationRun services hash before (.ok (.success session.id access refresh)) after

section Uninterrupted

variable {before after : State}

theorem Leaves.of_later {sessions : List Session} {tokens : List RefreshToken} {later : State}
    (leaves : Leaves before after sessions tokens) (rests : Later after later) :
    Leaves before later sessions tokens := by
  obtain ⟨auditLogEntries, equal⟩ := rests.undisturbed.store.db
  exact
    { sessions := by rw [equal]; exact leaves.sessions
      tokens := by rw [equal]; exact leaves.tokens
      supply := Nat.le_trans leaves.supply rests.undisturbed.store.supply
      clock := Int.le_trans leaves.clock rests.clock }

theorem leaves_refl (state : State) :
    Leaves state state state.store.db.sessions state.store.db.refreshTokens :=
  ⟨rfl, rfl, Nat.le_refl _, Int.le_refl _⟩

theorem presented_later {hash : String} (later : Later before after) :
    presented hash after.store.db = presented hash before.store.db := by
  obtain ⟨auditLogEntries, equal⟩ := later.undisturbed.store.db
  rw [equal]
  rfl

/-- An UPDATE of a session that a query returned does not fail. -/
theorem replayChanges_saves {hash : String} {db : Db} {stored : RefreshToken} {session : Session}
    (found : presented hash db = [(stored, session)]) {now savedAt : Instant}
    {exception : AppException} : replayChanges session now savedAt db ≠ .error exception := by
  obtain ⟨-, -, member, -⟩ := presented_eq_single found
  have present : ∃ row ∈ db.sessions, row.id = session.id := ⟨session, member, rfl⟩
  have saves : ∃ sessions, db.updateSession savedAt session (revokeForReuse session now) =
      .ok { db with sessions } ∧ sessions.map Session.id = db.sessions.map Session.id :=
    Db.updateSession_succeeds present
  obtain ⟨sessions, saved, -⟩ := saves
  rw [replayChanges, saved]
  rintro ⟨⟩

theorem rotateAsync_uninterrupted (services : Services) (http : HttpContext) (token : String)
    (call : ℕ) (before : State) :
    (rotateAsync services http token).wp (.alone Timely fun _ _ => True) call
      (RotationRun services (services.tokenGenerator.hash token) before) before := by
  have correct : RotationCorrect services (services.tokenGenerator.hash token)
      (.alone Timely fun _ _ => True) call Later before
      (RotationRun services (services.tokenGenerator.hash token) before) := by
    constructor
    case refused =>
      intro seen later result see refusal rests
      have whole := see.trans rests
      have sameRefusal : Refusal (services.tokenGenerator.hash token) before.store.db result := by
        cases refusal with
        | notFound missing =>
            rw [presented_later see] at missing
            exact .notFound missing
        | unspent outcome found unused different =>
            rw [presented_later see] at found
            exact .unspent outcome found unused different
      exact .refused later result sameRefusal ((leaves_refl before).of_later whole)
    case threw =>
      intro seen later exception see thrown unspent several rests
      rw [presented_later see] at unspent
      exact .threw later exception unspent ((leaves_refl before).of_later (see.trans rests))
    case replayed =>
      intro seen read current input stored session savedAt db see found used reading
        reached admitted
        saved
      rw [presented_later see] at found
      have whole := (see.trans reading).trans reached
      obtain ⟨auditLogEntries, equal⟩ := whole.undisturbed.store.db
      refine ⟨trivial, ?_⟩
      intro later rests
      refine .replayed later stored session read.last.now savedAt found used
        (Leaves.of_later ?_ rests)
      exact
        { sessions := by rw [Shared.advance_store, replayChanges_ok saved, equal]
          tokens := by rw [Shared.advance_store, replayChanges_ok saved, equal]
          supply := whole.undisturbed.store.supply
          clock := Int.le_trans whole.clock admitted.clock }
    case replayFailed =>
      intro seen read current later stored session savedAt exception see found used reading reached
        failed rests
      have stillFound : presented (services.tokenGenerator.hash token) current.store.db =
          [(stored, session)] := by
        rw [presented_later (reading.trans reached)]
        exact found
      exact absurd failed (replayChanges_saves stillFound)
    case rotated =>
      intro seen read stamped drawn current input stored session successor savedAt db see found
        reading accepted stamp same draw reach admitted saved
      rw [presented_later see] at found
      have start := see.trans reading
      have whole := ((start.trans stamp).trans draw.reached).trans reach
      obtain ⟨auditLogEntries, equal⟩ := whole.undisturbed.store.db
      obtain ⟨stampEntries, stampEqual⟩ := (start.trans stamp).undisturbed.store.db
      have commits := rotationChanges_ok accepted.unused saved
      refine ⟨trivial, ?_⟩
      intro later access refresh rests
      have written : Leaves before (current.advance call input
          ({ current.store with db }, [.refreshTokenSpent stored]))
          (writtenSessions session (slide session read.last.now) savedAt before.store.db.sessions)
          (rotatedTokens stored successor read.last.now savedAt before.store.db.refreshTokens) :=
        { sessions := by rw [Shared.advance_store, commits.after_eq, equal]
          tokens := by rw [Shared.advance_store, commits.after_eq, equal]
          supply := whole.undisturbed.store.supply
          clock := Int.le_trans whole.clock admitted.clock }
      refine .rotated later stored successor session read.last.now savedAt access refresh
        ⟨found, accepted, ?_, start.clock, ?_⟩ ?_ ?_ (written.of_later rests)
      · rw [stampEqual] at same
        exact same
      · have judged := ((stamp.trans draw.reached).trans reach).clock
        exact Int.le_trans (Int.le_trans judged admitted.clock) rests.clock
      · obtain ⟨earlier, since, number⟩ := draw.numbered
        have below := draw.supply
        have later := Nat.le_trans reach.undisturbed.store.supply rests.undisturbed.store.supply
        exact
          { drawn := by
              rw [number]
              exact ((start.trans stamp).trans since).undisturbed.store.supply
            given := Nat.lt_of_lt_of_le (by rw [below]; exact Nat.lt_succ_self _) later
            owner := draw.owner
            expiry := draw.expiry
            unused := draw.unused
            unlinked := draw.unlinked }
      · intro row member
        refine commits.freshHash row ?_
        rw [equal]
        exact member
  exact wp_rotateAsync (Calm.timely call) (fun _ _ _ admitted => admitted.faultless) correct

end Uninterrupted

end RefreshTokenService

end AuthStartpack
