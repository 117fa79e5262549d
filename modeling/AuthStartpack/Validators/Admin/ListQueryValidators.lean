import AuthStartpack.Validators.Common.PaginationRules

/-! Owns the queries of the two administrative lists, and their validators. -/

namespace AuthStartpack

structure AdminUserListQuery extends PagedQuery where
  search : Option String := none
  role : Option String := none
  emailVerified : Option Bool := none
  locked : Option Bool := none
deriving DecidableEq, Repr

structure AuditLogQuery extends PagedQuery where
  userId : Option Guid := none
  eventType : Option AuditEventType := none
  «from» : Option Instant := none
  «to» : Option Instant := none
  correlationId : Option String := none
deriving DecidableEq, Repr

namespace AdminUserListQueryValidator

def sortableFields : List String := ["email", "createdAt", "emailVerified"]

def validate (query : AdminUserListQuery) : List ValidationFailure :=
  PaginationRules.applyPagingRules query.toPagedQuery ++
  PaginationRules.applySortRules query.toPagedQuery sortableFields ++
  ValidationFailure.unless
    ⟨"Search", ValidationErrorCodes.tooLong, "Search term must be at most 256 characters."⟩
    (query.search.all (utf16Length · ≤ 256)) ++
  ValidationFailure.unless
    ⟨"Role", ValidationErrorCodes.tooLong, "Role name must be at most 64 characters."⟩
    (query.role.all (utf16Length · ≤ 64))

end AdminUserListQueryValidator

namespace AuditLogQueryValidator

def sortableFields : List String := ["occurredAt"]

/-- Without the rule on the event type: every value of the type passes it. -/
def validate (query : AuditLogQuery) : List ValidationFailure :=
  PaginationRules.applyPagingRules query.toPagedQuery ++
  PaginationRules.applySortRules query.toPagedQuery sortableFields ++
  ValidationFailure.unless
    ⟨"CorrelationId", ValidationErrorCodes.tooLong, "Correlation id must be at most 64 characters."⟩
    (query.correlationId.all (utf16Length · ≤ 64)) ++
  ValidationFailure.unless
    ⟨"", ValidationErrorCodes.rangeInverted, "'From' must not be later than 'To'."⟩
    (query.«from».all fun start => query.«to».all (start ≤ ·))

end AuditLogQueryValidator

end AuthStartpack
