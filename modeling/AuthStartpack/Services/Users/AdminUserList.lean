import AuthStartpack.Helpers.PagedQueryExtensions
import AuthStartpack.Services.Tokens.RefreshTokenService
import AuthStartpack.Validators.Admin.ListQueryValidators

/-!
Owns the list of users: `AdminUserService.ListAsync`. The pattern match of the
database and its order of e-mail addresses are parameters.
-/

namespace AuthStartpack

open Table

structure AdminUserResponse where
  id : Guid
  email : String
  emailVerified : Bool
  displayName : Option String
  roles : List String
  lockoutEndsAt : Option Instant
  createdAt : Instant
deriving DecidableEq, Repr

namespace AdminUserService

variable (iLike : String → String → Bool) (citext : SortOrder String)

def sorts : List (String × SortOrder User) :=
  [("email", citext.on User.email), ("createdAt", .ofKey User.createdAt),
    ("emailVerified", .ofKey User.emailVerified)]

def toListResponse (db : Db) (user : User) : AdminUserResponse where
  id := user.id
  email := user.email
  emailVerified := user.emailVerified
  displayName := user.displayName
  roles := db.roleNames user.id
  lockoutEndsAt := user.lockoutEndsAt
  createdAt := user.createdAt

/-- The conditions of a query, at this instant. -/
def matches? (db : Db) (query : AdminUserListQuery) (now : Instant) (user : User) : Bool :=
  (isNullOrWhiteSpace query.search ||
    let pattern := "%" ++ trim (query.search.getD "") ++ "%"
    iLike user.email pattern || user.displayName.any (iLike · pattern)) &&
  (isNullOrWhiteSpace query.role || query.role.any (db.roleNames user.id).contains) &&
  query.emailVerified.all (user.emailVerified = ·) &&
  query.locked.all fun locked =>
    if locked then user.lockoutEndsAt.any (now < ·) else user.lockoutEndsAt.all (· ≤ now)

/-- The users that a query matches at this instant. -/
def filtered (db : Db) (query : AdminUserListQuery) (now : Instant) : List User :=
  db.users.filter (matches? iLike db query now)

def listAsync (arranger : Arranger User) (db : Db) (now : Instant) (query : AdminUserListQuery) :
    Except PageFailure (PagedResponse AdminUserResponse) := do
  let order ← PagedQueryExtensions.applySort query.sort (sorts citext) (.ofKey User.createdAt)
  PagedQueryExtensions.toPagedResponseAsync arranger order query.toPagedQuery (toListResponse db)
    (filtered iLike db query now)

end AdminUserService

end AuthStartpack
