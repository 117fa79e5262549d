import AuthStartpack.Data.Alone
import AuthStartpack.Services.Dependencies

/-!
Owns the two services that only report: the audit trail, which is written in a
scope of its own, and the notification mails about credential changes. Neither
touches a table that another service reads.
-/

namespace AuthStartpack

section

variable {law : Law Input World Event} {call : ℕ} {K : State → State → Prop} {state : State}

/-! ### AuditLogger -/

namespace AuditLogger

/-- Its own `Truncate`, which keeps no empty text. -/
def truncated (value : Option String) (maxLength : ℕ) : Option String :=
  if value = some "" then none else truncate value maxLength

/-- The row that is written; the explicit subject wins over the caller. -/
def entry (http : HttpContext) (eventType : AuditEventType) (userId : Option Guid) (id : Guid)
    (occurredAt : Instant) : AuditLogEntry where
  id := id
  userId := if eventType = .adminUserDeleted then userId else userId <|> http.caller
  eventType := eventType
  ipAddress := truncated http.remoteIpAddress 45
  userAgent := truncated http.userAgent 512
  occurredAt := occurredAt

/-- `LogAsync`. A failed write is logged and swallowed. -/
def logAsync (http : HttpContext) (eventType : AuditEventType) (userId : Option Guid) :
    Action Unit := do
  let id ← Action.draw
  let occurredAt ← Action.utcNow
  tryCatch
    (Action.saveChanges
      fun _ db => db.insertAuditLogEntry (entry http eventType userId id occurredAt))
    fun _ => pure ()

theorem insertAuditLogEntry_quiet {db after : Db} {entry : AuditLogEntry}
    (inserted : db.insertAuditLogEntry entry = .ok after) :
    ∃ auditLogEntries, after = { db with auditLogEntries } := by
  simp only [Db.insertAuditLogEntry, bind_eq_ok, pure_eq_ok] at inserted
  obtain ⟨auditLogEntries, -, equal⟩ := inserted
  exact ⟨auditLogEntries, equal⟩

theorem wp_logAsync (calm : Calm law call K) {http : HttpContext} {eventType : AuditEventType}
    {userId : Option Guid} {post : Except AppException Unit → State → Prop}
    (rest : ∀ later, K state later → post (.ok ()) later) :
    (logAsync http eventType userId).wp law call post state := by
  simp only [logAsync, Program.wp_bind]
  refine Action.calm_draw calm ?_
  intro _ drawn earlier drew _
  simp only [Program.andThen_ok, Program.wp_bind]
  refine Action.calm_utcNow calm ?_
  intro stamped read
  have reached := calm.trans _ _ _ (calm.trans _ _ _ earlier drew) read
  simp only [Program.andThen_ok, Program.wp_tryCatch]
  intro current relied input admitted
  have arrived := calm.trans _ _ _ reached (calm.rely _ _ relied)
  dsimp only at admitted ⊢
  split at admitted
  case h_1 db inserted =>
    obtain ⟨kept, stays⟩ := calm.quiet current input { current.store with db } admitted
      ⟨insertAuditLogEntry_quiet inserted, Nat.le_refl _, rfl⟩
    exact ⟨kept, rest _ (calm.trans _ _ _ arrived stays)⟩
  case h_2 exception refused =>
    obtain ⟨kept, stays⟩ := calm.quiet current input current.store admitted (.refl _)
    exact ⟨kept, rest _ (calm.trans _ _ _ arrived stays)⟩

/-- The database once an entry has been written, or refused. -/
def record (entry : AuditLogEntry) (db : Db) : Db :=
  match db.insertAuditLogEntry entry with
  | .ok db => db
  | .error _ => db

theorem alone_logAsync {admits : State → ℕ → Input → List Event → Prop} {http : HttpContext}
    {eventType : AuditEventType} {userId : Option Guid}
    {post : Except AppException Unit → State → Prop}
    (rest : ∀ drawing reading input, admits (state.drew drawing) call reading [] →
      post (.ok ()) ((state.drew drawing).wrote input
        (record (entry http eventType userId state.store.supply reading.now) state.store.db))) :
    (logAsync http eventType userId).wp (.alone admits fun _ _ => True) call post state := by
  simp only [logAsync, Program.wp_bind]
  refine alone_draw ?_
  intro drawing _
  simp only [Program.andThen_ok, Program.wp_bind]
  refine alone_utcNow ?_
  intro reading admitted
  simp only [Program.andThen_ok, Program.wp_tryCatch, Action.saveChanges, Program.wp_atomically,
    alone_rely, alone_guarantee, forall_eq', true_and]
  intro input _
  have written := rest drawing reading input admitted
  simp only [record] at written
  cases outcome : state.store.db.insertAuditLogEntry
      (entry http eventType userId state.store.supply reading.now) with
  | ok db =>
      simpa [outcome, Shared.advance, Shared.wrote, Shared.drew, Shared.observed] using written
  | error exception =>
      simpa [outcome, Shared.advance, Shared.wrote, Shared.drew, Shared.observed] using written

end AuditLogger

/-! ### SecurityNotificationService -/

namespace SecurityNotificationService

/-- `FindAsync` answers with the user that the calling service has loaded in the same context,
and reads the table only if there is none. -/
def find (tracked : Option User) (userId : Guid) : Action (Option User) :=
  match tracked with
  | some user => pure (some user)
  | none => Action.query fun db => db.users.find? (·.id = userId)

def notifyAsync (tracked : Option User) (userId : Guid) (eventName : String) : Action Unit := do
  let user ← Action.orThrow
    (.invalidOperation s!"Cannot notify user '{userId}': the user no longer exists.")
    (← find tracked userId)
  let occurredAt ← Action.utcNow
  Action.queueEmail
    { recipient := user.email
      subject := s!"Security notification: {eventName}"
      template := "SecurityNotification"
      values := [("Event", eventName), ("OccurredAt", toString occurredAt)] }

theorem wp_notifyAsync (calm : Calm law call K) {tracked : Option User} {userId : Guid}
    {eventName : String} {post : Except AppException Unit → State → Prop}
    (rest : ∀ outcome later, K state later → post outcome later) :
    (notifyAsync tracked userId eventName).wp law call post state := by
  have finding : (find tracked userId).wp law call
      (fun outcome later => K state later ∧ ∃ found, outcome = .ok found) state := by
    cases tracked with
    | some user => exact ⟨calm.refl _, _, rfl⟩
    | none =>
        unfold find
        refine Action.calm_query calm ?_
        intro later read
        exact ⟨read, _, rfl⟩
  refine Program.wp_bind_of finding ?continues ?throws
  case throws =>
    rintro exception later ⟨-, found, impossible⟩
    cases impossible
  rintro found earlier ⟨reached, -⟩
  cases found with
  | none => exact rest _ _ reached
  | some user =>
      simp only [Program.wp_bind, Action.wp_orThrow, Program.andThen_ok]
      refine Action.calm_utcNow calm ?_
      intro stamped read
      simp only [Program.andThen_ok]
      refine Action.calm_queueEmail calm ?_
      intro later queued
      exact rest _ _ (calm.trans _ _ _ (calm.trans _ _ _ reached read) queued)

/-- A user that is tracked is notified. -/
theorem wp_notifyAsync_tracked (calm : Calm law call K) {user : User} {userId : Guid}
    {eventName : String} {post : Except AppException Unit → State → Prop}
    (rest : ∀ later, K state later → post (.ok ()) later) :
    (notifyAsync (some user) userId eventName).wp law call post state := by
  change (Action.utcNow >>= fun occurredAt => Action.queueEmail _).wp law call post state
  rw [Program.wp_bind]
  refine Action.calm_utcNow calm ?_
  intro stamped read
  rw [Program.andThen_ok]
  refine Action.calm_queueEmail calm ?_
  intro later queued
  exact rest _ (calm.trans _ _ _ read queued)

end SecurityNotificationService

end

section Keeps

variable {law : Law Input World Event} {K : State → State → Prop} [∀ call, Calm law call K]

theorem Keeps.logAsync (http : HttpContext) (eventType : AuditEventType) (userId : Option Guid) :
    Keeps law K (AuditLogger.logAsync http eventType userId) :=
  fun _ _ => AuditLogger.wp_logAsync inferInstance fun _ later => later

theorem Keeps.notifyAsync (tracked : Option User) (userId : Guid) (eventName : String) :
    Keeps law K (SecurityNotificationService.notifyAsync tracked userId eventName) :=
  fun _ _ => SecurityNotificationService.wp_notifyAsync inferInstance fun _ _ later => later

end Keeps

end AuthStartpack
