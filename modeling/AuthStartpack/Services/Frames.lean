import AuthStartpack.Data.Frame
import AuthStartpack.Services.Auth.LoginService

/-!
Owns what the services leave alone: each of them keeps every framed relation
whose view does not look at the tables that the service writes, and for which
the events of the service do not count.
-/

namespace AuthStartpack

variable {law : Law Input World Event} {K : State → State → Prop} {τ : Type}
variable {view : Db → τ} {counts : Event → Prop} [frames : Frames law K view counts]

include frames

/-! ### Verification tokens -/

section VerificationTokens

variable (tokens : ∀ db verificationTokens, view { db with verificationTokens } = view db)

include tokens

namespace VerificationTokens

theorem store_frame_reporting {report : VerificationToken → List Event}
    (silent : ∀ token, ∀ event ∈ report token, ¬ counts event) (services : Services)
    (userId : Option Guid) (type : VerificationTokenType) (lifetime : Duration) :
    Keeps law K (store services userId type lifetime report) := by
  apply Keeps.bind .draw
  intro drawn
  apply Keeps.bind .utcNow
  intro now
  apply Keeps.bind .draw
  intro _
  apply Keeps.bind
  · refine .frame_reporting ?_ fun _ => silent _
    intro now db after saved
    obtain ⟨verificationTokens, rfl⟩ := Db.insertVerificationToken_ok saved
    exact tokens _ _
  intro _
  exact .pure _

theorem store_frame (services : Services) (userId : Option Guid) (type : VerificationTokenType)
    (lifetime : Duration) : Keeps law K (store services userId type lifetime) :=
  store_frame_reporting tokens (by simp) services userId type lifetime

theorem consume_frame {consumer : TokenConsumer}
    (silent : ∀ token, ¬ counts (.verificationTokenConsumed token consumer)) (hash : String)
    (type : VerificationTokenType) (now : Instant) (requires : VerificationToken → Bool) :
    Keeps law K (consume hash type now requires consumer) := by
  unfold consume
  apply Keeps.frame_execute
  · intro db
    exact tokens _ _
  · intro db event member
    obtain ⟨token, -, rfl⟩ := List.mem_map.mp member
    exact silent token

end VerificationTokens

namespace MfaTicketService

theorem issueAsync_frame (services : Services) (userId : Guid) :
    Keeps law K (issueAsync services userId) :=
  VerificationTokens.store_frame tokens services _ _ _

theorem consumeAsync_frame
    (silent : ∀ token, ¬ counts (.verificationTokenConsumed token .mfaTicket))
    (services : Services) (presentedTicket : String) :
    Keeps law K (consumeAsync services presentedTicket) := by
  apply Keeps.bind .utcNow
  intro now
  apply Keeps.bind (VerificationTokens.consume_frame tokens silent _ _ _ _)
  intro consumed
  exact .ite (.pure _) (.queryOrThrow _)

end MfaTicketService

end VerificationTokens

/-! ### Sessions -/

section Sessions

theorem RefreshTokenService.issueAsync_frame
    (tokens : ∀ db refreshTokens, view { db with refreshTokens } = view db) (services : Services)
    (sessionId : Guid) : Keeps law K (issueAsync services sessionId) := by
  apply Keeps.bind (.queryOrThrow _)
  intro session
  apply Keeps.bind
  · exact .bind .draw fun _ => .bind .draw fun _ => .pure _
  intro issued
  apply Keeps.bind
  · refine .frame_saveChanges ?_
    intro now db after saved
    obtain ⟨-, rfl⟩ := Db.insertRefreshToken_eq_ok.mp saved
    exact tokens _ _
  intro _
  exact .pure _

variable (sessions : ∀ db sessions, view { db with sessions } = view db)

include sessions

namespace SessionService

theorem createAsync_frame (services : Services) (request : NewSessionRequest) :
    Keeps law K (createAsync services request) := by
  apply Keeps.bind .utcNow
  intro now
  apply Keeps.bind (.queryOrThrow _)
  intro securityStamp
  apply Keeps.bind .draw
  intro id
  refine .bind (.frame_saveChanges ?_) fun _ => .pure _
  intro now db after saved
  obtain ⟨-, rfl⟩ := Db.insertSession_eq_ok.mp saved
  exact sessions _ _

theorem updateSessions_frame (pred : Session → Bool) (write : Session → Session) :
    Keeps law K (updateSessions pred write) :=
  .frame_execute (fun _ => sessions _ _) fun _ _ member => nomatch member

theorem revokeAllForUserAsync_frame (userId : Guid) (exceptSessionId : Option Guid)
    (reason : SessionRevocationReason) :
    Keeps law K (revokeAllForUserAsync userId exceptSessionId reason) :=
  .bind .utcNow fun _ => updateSessions_frame sessions _ _

end SessionService

theorem AuthenticationSessionFactory.createAsync_frame
    (tokens : ∀ db refreshTokens, view { db with refreshTokens } = view db) (services : Services)
    (http : HttpContext) (userId : Guid) (methods : List AuthenticationMethod) :
    Keeps law K (createAsync services http userId methods) := by
  apply Keeps.bind (.queryOrThrow _)
  intro user
  apply Keeps.bind (.query _)
  intro roles
  apply Keeps.bind .utcNow
  intro now
  apply Keeps.bind (SessionService.createAsync_frame sessions services _)
  intro sessionId
  apply Keeps.bind (RefreshTokenService.issueAsync_frame tokens services _)
  intro refresh
  exact .bind (.accessToken services _) fun _ => .pure _

end Sessions

end AuthStartpack
