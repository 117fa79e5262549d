import AuthStartpack.Exceptions.ExceptionToProblemDetailsMap
import AuthStartpack.Program.Sequential
import AuthStartpack.Refresh.Rotation
import AuthStartpack.Services.Auth.RefreshService

/-!
Owns what a caller learns from a refresh that failed while nothing failed at the
database. Status, code, title and type are those of any failure, but the detail
is the message of the exception, and a detected replay has a message of its own.
So two failures look alike exactly if both are replays or neither is.
-/

namespace AuthStartpack

/-- The exceptions by which `RefreshAsync` refuses a token. -/
inductive RefreshService.Failure : AppException → Prop
  | invalidCredentials : Failure .invalidCredentials
  | tokenReuseDetected (sessionId : Guid) : Failure (.tokenReuseDetected sessionId)

/-! ### Replays -/

namespace RefreshTokenService

open RefreshService

/-- The stored row of the presented token is marked as used. -/
def Replays (hash : String) (db : Db) : Prop :=
  ∃ stored session, presented hash db = [(stored, session)] ∧ stored.usedAt ≠ none

/-- A call that returns has detected a reuse exactly in a replay. What it throws is no refusal. -/
def DetectsReplay (hash : String) (db : Db) : Except AppException RefreshResult → Prop
  | .ok result =>
      (result.outcome = .reuseDetected ∧ result.sessionId.isSome = true) ↔ Replays hash db
  | .error exception => ¬ Failure exception

theorem not_failure_of_thrown {exception : AppException} (thrown : Action.Thrown exception) :
    ¬ Failure exception := by
  intro failure
  cases thrown with
  | invalidOperation refused =>
      obtain ⟨message, rfl⟩ := refused
      cases failure
  | statement refused => cases refused <;> cases failure

theorem replays_iff {hash : String} {db : Db} {stored : RefreshToken} {session : Session}
    (found : presented hash db = [(stored, session)]) : Replays hash db ↔ stored.usedAt ≠ none := by
  constructor
  · rintro ⟨other, owner, single, used⟩
    rw [found] at single
    cases single
    exact used
  · intro used
    exact ⟨stored, session, found, used⟩

theorem not_replays_of_missing {hash : String} {db : Db} (missing : presented hash db = []) :
    ¬ Replays hash db := by
  rintro ⟨stored, session, single, -⟩
  rw [missing] at single
  cases single

/-- The delegate is run once, and takes the row as it finds it. -/
theorem rotation_detectsReplay {services : Services} {hash : String} {call : ℕ} {start : State} :
    RotationCorrect services hash (.alone Faultless fun _ _ => True) call Undisturbed start
      fun outcome _ => DetectsReplay hash start.store.db outcome := by
  constructor
  case refused =>
    intro seen later result see refusal _
    cases refusal with
    | notFound missing =>
        rw [presented_quiet see.store] at missing
        simp [DetectsReplay, RefreshResult.failure, not_replays_of_missing missing]
    | unspent outcome found unused different =>
        rw [presented_quiet see.store] at found
        simp [DetectsReplay, RefreshResult.failure, different.2, replays_iff found, unused]
  case threw =>
    intro seen later exception _ thrown _ _ _
    exact not_failure_of_thrown thrown
  case replayed =>
    intro seen read current input stored session savedAt db see found used _ _ _ _
    rw [presented_quiet see.store] at found
    refine ⟨trivial, ?_⟩
    intro later _
    simp [DetectsReplay, RefreshResult.failure, replays_iff found, used]
  case replayFailed =>
    intro seen read current later stored session savedAt exception _ _ _ _ _ refused _
    exact not_failure_of_thrown (.statement (Db.updateSession_error refused))
  case rotated =>
    intro seen read stamped drawn current input stored session successor savedAt db see found _
      accepted _ _ _ _ _ _
    rw [presented_quiet see.store] at found
    refine ⟨trivial, ?_⟩
    intro later access refresh _
    simp [DetectsReplay, RefreshResult.success, replays_iff found, accepted.unused]

theorem rotateAsync_detectsReplay {services : Services} {http : HttpContext} {token : String}
    {call : ℕ} {start : State} :
    (rotateAsync services http token).wp (.alone Faultless fun _ _ => True) call
      (fun outcome _ => DetectsReplay (services.tokenGenerator.hash token) start.store.db outcome)
      start :=
  wp_rotateAsync (Calm.alone Faultless call) (fun _ _ _ faultless => faultless)
    rotation_detectsReplay

end RefreshTokenService

/-! ### What the caller sees -/

namespace RefreshService

variable {services : Services}

/-- The request presents a token that is replayed. -/
def PresentsReplay (services : Services) (cookieToken bodyToken : Option String) (db : Db) : Prop :=
  ∃ presented, AuthTokenTransport.readRefreshToken cookieToken bodyToken = some presented ∧
    isNullOrWhiteSpace (some presented) = false ∧
    RefreshTokenService.Replays (services.tokenGenerator.hash presented) db

theorem refreshAsync_failure {http : HttpContext} {cookieToken bodyToken : Option String} {call : ℕ}
    {start : State} :
    (refreshAsync services http cookieToken bodyToken).wp
      (.alone RefreshTokenService.Faultless fun _ _ => True) call
      (fun outcome _ => ∀ exception, outcome = .error exception → Failure exception →
        ((∃ sessionId, exception = .tokenReuseDetected sessionId) ↔
          PresentsReplay services cookieToken bodyToken start.store.db)) start := by
  unfold refreshAsync
  cases reading : AuthTokenTransport.readRefreshToken cookieToken bodyToken with
  | none =>
      rintro _ ⟨⟩ -
      simp [PresentsReplay, reading]
  | some presented =>
  have replays : isNullOrWhiteSpace (some presented) = false →
      (PresentsReplay services cookieToken bodyToken start.store.db ↔
        RefreshTokenService.Replays (services.tokenGenerator.hash presented) start.store.db) := by
    intro written
    simp [PresentsReplay, reading, written]
  dsimp only
  split
  case isTrue blank =>
    rintro _ ⟨⟩ -
    simp [PresentsReplay, reading, blank]
  case isFalse written =>
  rw [Bool.not_eq_true] at written
  refine Program.wp_bind_of RefreshTokenService.rotateAsync_detectsReplay ?_ ?_
  · intro result later detects
    have detected : (result.outcome = .reuseDetected ∧ result.sessionId.isSome = true) ↔
        PresentsReplay services cookieToken bodyToken start.store.db :=
      Iff.trans detects (replays written).symm
    split
    case h_1 _ _ sessionId reused session =>
      rintro _ ⟨⟩ -
      exact ⟨fun _ => detected.mp ⟨reused, by simp [session]⟩, fun _ => ⟨sessionId, rfl⟩⟩
    case h_2 => exact fun _ impossible => nomatch impossible
    case h_3 other _ =>
      rintro _ ⟨⟩ -
      refine ⟨(fun ⟨_, impossible⟩ => nomatch impossible), fun replayed => ?_⟩
      obtain ⟨reused, session⟩ := detected.mpr replayed
      obtain ⟨sessionId, found⟩ := Option.isSome_iff_exists.mp session
      exact absurd found (other sessionId reused)
  · rintro exception later refused _ ⟨⟩ failure
    exact absurd failure refused

/-- The problem of a failure depends on nothing but whether a reuse was detected. -/
theorem Failure.same_problem_iff {first second : AppException} {message : AppException → String}
    {includeDetail : Bool} (firstFails : Failure first) (secondFails : Failure second) :
    ExceptionToProblemDetailsMap.toProblemDetails message first includeDetail =
        ExceptionToProblemDetailsMap.toProblemDetails message second includeDetail ↔
      ((∃ sessionId, first = .tokenReuseDetected sessionId) ↔
        ∃ sessionId, second = .tokenReuseDetected sessionId) := by
  cases firstFails <;> cases secondFails <;>
    simp [ExceptionToProblemDetailsMap.toProblemDetails, ExceptionToProblemDetailsMap.map,
      AppException.domain?]

end RefreshService

/-- A refresh that was refused while nothing failed transiently, with its request and the state it
began in. -/
structure FailedRefresh (services : Services) where
  http : HttpContext
  cookieToken : Option String
  bodyToken : Option String
  before : State
  call : ℕ
  exception : AppException
  after : State
  run : (RefreshService.refreshAsync services http cookieToken bodyToken).Completes
    RefreshTokenService.Faultless call before (.error exception) after
  failure : RefreshService.Failure exception

namespace FailedRefresh

variable {services : Services}

/-- The problem that the caller is sent. -/
def problem (refresh : FailedRefresh services) (message : AppException → String)
    (includeDetail : Bool) : ProblemDetails :=
  ExceptionToProblemDetailsMap.toProblemDetails message refresh.exception includeDetail

/-- The stored row of the presented token was marked as used when the call began. -/
def Replayed (refresh : FailedRefresh services) : Prop :=
  RefreshService.PresentsReplay services refresh.cookieToken refresh.bodyToken
    refresh.before.store.db

theorem reuseDetected_iff (refresh : FailedRefresh services) :
    (∃ sessionId, refresh.exception = .tokenReuseDetected sessionId) ↔ refresh.Replayed :=
  refresh.run.post_of_wp RefreshService.refreshAsync_failure _ rfl refresh.failure

/-- Two failures look alike exactly if both are replays or neither is. -/
theorem problem_eq_iff (first second : FailedRefresh services) (message : AppException → String)
    (includeDetail : Bool) :
    first.problem message includeDetail = second.problem message includeDetail ↔
      (first.Replayed ↔ second.Replayed) := by
  rw [← first.reuseDetected_iff, ← second.reuseDetected_iff]
  exact first.failure.same_problem_iff second.failure

end FailedRefresh

/-! ### A token that was never issued and one that was replayed -/

/-- The sample world after its token was used. -/
def sampleSpentWorld : World :=
  let db := RefreshTokenService.sampleWorld.db
  { RefreshTokenService.sampleWorld with
    db := { db with refreshTokens := db.refreshTokens.map ({ · with usedAt := some 5 }) } }

/-- The token is sent in the body, and nothing fails. -/
def presentedInBody (token : String) (world : World) :
    Option (Except AppException TokenPairResponse × State) :=
  Program.execute RefreshTokenService.Faultless 0 (fun _ => ⟨10, false⟩)
    (RefreshService.refreshAsync .sample {} none (some token)) (Shared.initial world ⟨10, false⟩)

def endsIn (exception : AppException) (ended : Except AppException TokenPairResponse × State) :
    Bool :=
  match ended.1 with
  | .error thrown => decide (thrown = exception)
  | .ok _ => false

theorem FailedRefresh.exists_of_ends {token : String} {world : World} {exception : AppException}
    (ends : (presentedInBody token world).any (endsIn exception) = true)
    (failure : RefreshService.Failure exception) :
    ∃ refresh : FailedRefresh .sample, refresh.exception = exception := by
  obtain ⟨⟨outcome, after⟩, executed, thrown⟩ := (Option.any_eq_true _ _).mp ends
  cases outcome with
  | ok response => cases thrown
  | error raised =>
      obtain rfl : raised = exception := by simpa [endsIn] using thrown
      exact ⟨⟨{}, none, some token, _, 0, raised, after, Program.completes_of_execute executed,
        failure⟩, rfl⟩

set_option maxRecDepth 10000 in
/-- The detail tells them apart. -/
theorem replay_distinguishable : ∃ first second : FailedRefresh .sample, ∀ message includeDetail,
    first.problem message includeDetail ≠ second.problem message includeDetail := by
  obtain ⟨unknown, invalid⟩ := FailedRefresh.exists_of_ends
    (show (presentedInBody "never issued" sampleSpentWorld).any
      (endsIn .invalidCredentials) = true by
      decide) .invalidCredentials
  obtain ⟨replayed, reused⟩ := FailedRefresh.exists_of_ends
    (show (presentedInBody "first" sampleSpentWorld).any (endsIn (.tokenReuseDetected 2)) = true by
      decide) (.tokenReuseDetected 2)
  refine ⟨unknown, replayed, fun message includeDetail same => ?_⟩
  have details := congrArg ProblemDetails.detail same
  rw [FailedRefresh.problem, FailedRefresh.problem, invalid, reused] at details
  revert details
  simp [ExceptionToProblemDetailsMap.toProblemDetails, AppException.domain?]

end AuthStartpack
