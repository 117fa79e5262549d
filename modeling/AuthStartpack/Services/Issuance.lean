import AuthStartpack.Refresh.Rotation
import AuthStartpack.Services.Auth.AuthenticationSessionFactory

/-!
Owns the specifications of the two inserts that every sign-in ends with: the
session, and its first refresh token. Each is stated for the one save of the
service, with what the reads before it have found.
-/

namespace AuthStartpack

variable {law : Law Input World Event} {call : ℕ} {K : State → State → Prop} {state : State}

namespace SessionService

/-- How `CreateAsync` comes to the row that it adds: the reading, the stamp and the id. -/
structure Prepared (services : Services) (K : State → State → Prop) (request : NewSessionRequest)
    (start current : State) (row : Session) : Prop where
  reached : K start current
  dated : ∃ read, K start read ∧
    row = newSession services request row.id row.securityStamp read.last.now
  stamped : ∃ seen, K start seen ∧ K seen current ∧
    Action.single ((seen.store.db.users.filter (·.id = request.userId)).map (·.securityStamp)) =
      .ok row.securityStamp
  numbered : ∃ drawn, K start drawn ∧ K drawn current ∧ row.id = drawn.store.supply

theorem wp_createAsync (calm : Calm law call K) {services : Services} {request : NewSessionRequest}
    {post : Except AppException Guid → State → Prop}
    (opens : ∀ current row input db, Prepared services K request state current row →
      current.store.db.insertSession input.now row = .ok db → law.admits current call input [] →
      let opened := current.advance call input ({ current.store with db }, [])
      law.guarantee call current opened ∧ post (.ok row.id) opened)
    (unknown : ∀ seen exception, K state seen →
      Action.single ((seen.store.db.users.filter (·.id = request.userId)).map (·.securityStamp)) =
        .error exception → post (.error exception) seen)
    (refused : ∀ current later row exception now, Prepared services K request state current row →
      K current later → current.store.db.insertSession now row = .error exception →
      post (.error exception) later) :
    (createAsync services request).wp law call post state := by
  simp only [createAsync, Program.wp_bind]
  refine Action.calm_utcNow calm ?_
  intro read reading
  simp only [Program.andThen_ok, Program.wp_bind]
  refine Action.calm_queryOrThrow calm ?_
  intro seen see
  have reached := calm.trans _ _ _ reading see
  cases stamped : Action.single ((seen.store.db.users.filter (·.id = request.userId)).map
      (·.securityStamp)) with
  | error exception => exact unknown seen exception reached stamped
  | ok securityStamp =>
  simp only [Program.andThen_ok, Program.wp_bind]
  refine Action.calm_draw calm ?_
  intro drawn later before drew _
  have numbered := calm.trans _ _ _ reached before
  have prepared : ∀ current, K later current → Prepared services K request state current
      (newSession services request drawn.store.supply securityStamp read.last.now) := by
    intro current rests
    have since := calm.trans _ _ _ drew rests
    refine ⟨calm.trans _ _ _ numbered since, ⟨read, reading, rfl⟩, ⟨seen, reached, ?_, stamped⟩,
      ⟨drawn, numbered, since, rfl⟩⟩
    exact calm.trans _ _ _ before since
  simp only [Program.andThen_ok, Program.wp_bind]
  refine Action.wp_saveChanges calm ?_ ?_
  · intro current input db rests saved admitted
    exact opens current _ input db (prepared current rests) saved admitted
  · intro current after exception now rests later refusal
    exact refused current after _ exception now (prepared current rests) later refusal

end SessionService

namespace RefreshTokenService

theorem wp_issueAsync (calm : Calm law call K) {services : Services} {sessionId : Guid}
    {post : Except AppException IssuedRefreshToken → State → Prop}
    (issues : ∀ seen drawn current session row input db, K state seen →
      session ∈ seen.store.db.sessions → session.id = sessionId →
      Drawn services K seen drawn session row → K drawn current →
      current.store.db.insertRefreshToken input.now row = .ok db →
        law.admits current call input [] →
      let issued := current.advance call input ({ current.store with db }, [])
      law.guarantee call current issued ∧ ∀ token, post (.ok token) issued)
    (unknown : ∀ seen exception, K state seen →
      Action.single (seen.store.db.sessions.filter (·.id = sessionId)) = .error exception →
      post (.error exception) seen)
    (refused : ∀ seen drawn current later session row exception now, K state seen →
      session.id = sessionId → Drawn services K seen drawn session row → K drawn current →
      K current later → current.store.db.insertRefreshToken now row = .error exception →
      post (.error exception) later) :
    (issueAsync services sessionId).wp law call post state := by
  simp only [issueAsync, Program.wp_bind]
  refine Action.calm_queryOrThrow calm ?_
  intro seen see
  cases found : Action.single (seen.store.db.sessions.filter (·.id = sessionId)) with
  | error exception => exact unknown seen exception see found
  | ok session =>
  obtain ⟨member, hit⟩ := Action.mem_of_single found
  obtain rfl : session.id = sessionId := by simpa using hit
  simp only [Program.andThen_ok, Program.wp_bind]
  refine wp_createToken calm ?_
  intro issued drawn row draw
  simp only [Program.andThen_ok, Program.wp_bind]
  refine Action.wp_saveChanges calm ?_ ?_
  · intro current input db rests saved admitted
    obtain ⟨kept, answers⟩ :=
      issues seen drawn current session row input db see member rfl draw rests saved admitted
    exact ⟨kept, answers issued⟩
  · intro current after exception now rests later refusal
    exact refused seen drawn current after session row exception now see rfl draw rests
      later refusal

end RefreshTokenService

end AuthStartpack
