import AuthStartpack.Data.Alone
import AuthStartpack.Services.Dependencies
import Mathlib.Data.List.Sort

/-!
Owns `ExpiredAuthArtifactCleanupService`: one pass that deletes expired rows in
batches, the oldest first. Retiring elapsed signing keys is not modelled.
-/

namespace AuthStartpack

namespace ExpiredAuthArtifactCleanupService

/-- The ids of the first `batchSize` rows that satisfy `pred`, in the order of `expiry`. -/
def batch {ρ : Type} (key : ρ → Guid) (expiry : ρ → Instant) (pred : ρ → Bool) (batchSize : ℕ)
    (rows : List ρ) : List Guid :=
  (((rows.filter pred).insertionSort fun left right => expiry left ≤ expiry right).map key).take
    batchSize

def deleteRefreshTokensAsync (services : Services) (now : Instant) : Action Unit := do
  let ids ← Action.query fun db =>
    batch RefreshToken.id RefreshToken.expiresAt (·.expiresAt ≤ now)
      services.cleanupOptions.batchSize db.refreshTokens
  if 0 < ids.length then
    let _ ← Action.execute (fun db => db.refreshTokens.countP fun token => ids.contains token.id)
      (fun db => { db with
        refreshTokens := Table.deleteWhere (fun token => ids.contains token.id) db.refreshTokens })
      fun _ => []

def deleteSessionsAsync (services : Services) (now : Instant) : Action Unit := do
  let ids ← Action.query fun db =>
    batch Session.id Session.absoluteExpiresAt (·.absoluteExpiresAt ≤ now)
      services.cleanupOptions.batchSize db.sessions
  if 0 < ids.length then
    let _ ← Action.execute (fun db => db.sessions.countP fun session => ids.contains session.id)
      (Db.deleteSessions fun session => ids.contains session.id) fun _ => []

def deleteVerificationTokensAsync (services : Services) (now : Instant) : Action Unit := do
  let ids ← Action.query fun db =>
    batch VerificationToken.id VerificationToken.expiresAt
      (fun token => token.expiresAt ≤ now || token.consumedAt ≠ none)
      services.cleanupOptions.batchSize db.verificationTokens
  if 0 < ids.length then
    let _ ← Action.execute
      (fun db => db.verificationTokens.countP fun token => ids.contains token.id)
      (fun db => { db with
        verificationTokens :=
          Table.deleteWhere (fun token => ids.contains token.id) db.verificationTokens })
      fun _ => []

def deleteAuditEntriesAsync (services : Services) (cutoff : Instant) : Action Unit := do
  let ids ← Action.query fun db =>
    batch AuditLogEntry.id AuditLogEntry.occurredAt (·.occurredAt ≤ cutoff)
      services.cleanupOptions.batchSize db.auditLogEntries
  if 0 < ids.length then
    let _ ← Action.execute (fun db => db.auditLogEntries.countP fun entry => ids.contains entry.id)
      (fun db => { db with
        auditLogEntries :=
          Table.deleteWhere (fun entry => ids.contains entry.id) db.auditLogEntries })
      fun _ => []

def cleanupOnceAsync (services : Services) : Action Unit := do
  let now ← Action.utcNow
  deleteRefreshTokensAsync services now
  deleteSessionsAsync services now
  deleteVerificationTokensAsync services now
  deleteAuditEntriesAsync services (now - services.cleanupOptions.auditRetention)

end ExpiredAuthArtifactCleanupService

end AuthStartpack
