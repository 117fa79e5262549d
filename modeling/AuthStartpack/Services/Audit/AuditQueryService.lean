import AuthStartpack.Helpers.PagedQueryExtensions
import AuthStartpack.Validators.Admin.ListQueryValidators

/-! Owns the query of the audit trail: `AuditQueryService.QueryAsync`. -/

namespace AuthStartpack

open Table

/-- A row of the trail with the correlation id, which only this query reads. -/
structure StoredAuditLogEntry extends AuditLogEntry where
  correlationId : Option String := none
deriving DecidableEq, Repr

/-- The response without the metadata. -/
structure AuditLogEntryResponse where
  id : Guid
  userId : Option Guid
  eventType : AuditEventType
  ipAddress : Option String
  userAgent : Option String
  correlationId : Option String
  occurredAt : Instant
deriving DecidableEq, Repr

namespace AuditQueryService

def occurredAtField : String := "occurredAt"

def toResponse (entry : StoredAuditLogEntry) : AuditLogEntryResponse where
  id := entry.id
  userId := entry.userId
  eventType := entry.eventType
  ipAddress := entry.ipAddress
  userAgent := entry.userAgent
  correlationId := entry.correlationId
  occurredAt := entry.occurredAt

def filter (entries : List StoredAuditLogEntry) (query : AuditLogQuery) :
    List StoredAuditLogEntry :=
  entries.filter fun entry =>
    query.userId.all (entry.userId = some ·) && query.eventType.all (entry.eventType = ·) &&
      query.«from».all (· ≤ entry.occurredAt) && query.«to».all (entry.occurredAt < ·) &&
      query.correlationId.all fun correlationId =>
        correlationId = "" || entry.correlationId = some correlationId

def occurredAt : SortOrder StoredAuditLogEntry := .ofKey fun entry => entry.occurredAt

/-- Ascending only where the field is named, and `desc` does not follow. -/
def sort (sort : Option String) : SortOrder StoredAuditLogEntry :=
  match sort with
  | none | some "" => occurredAt.descending
  | some text =>
      let (field, direction) := splitInTwo ':' text
      let ascending :=
        direction.all fun part => !ClaimsPrincipal.equalsIgnoreCase (trim part) "desc"
      if !ClaimsPrincipal.equalsIgnoreCase (trim field) occurredAtField then occurredAt.descending
      else if ascending then occurredAt else occurredAt.descending

def queryAsync (arranger : Arranger StoredAuditLogEntry) (entries : List StoredAuditLogEntry)
    (query : AuditLogQuery) : Except PageFailure (PagedResponse AuditLogEntryResponse) :=
  PagedQueryExtensions.toPagedResponseAsync arranger (sort query.sort) query.toPagedQuery toResponse
    (filter entries query)

end AuditQueryService

end AuthStartpack
