import AuthStartpack.Data.Database

/-!
Owns the change tracker of a `DbContext`, as far as a transaction that is run
again with the same context depends on it: the instances of sessions and refresh
tokens that queries returned or that were added, each with the values it had
when it was last in step with the database. A rolled-back transaction does not
restore it.
-/

namespace AuthStartpack

inductive EntityState
  | unchanged
  | added
deriving DecidableEq, Repr

/-- A tracked instance. An entry of a stored row is modified when `current` differs from
`original`. -/
structure Tracked (ρ : Type) where
  state : EntityState
  original : ρ
  current : ρ
deriving DecidableEq, Repr

namespace Tracked

variable {ρ : Type}

/-- What a query that returns `row` leaves tracked: an instance with its key stays as it is. -/
def resolve (key : ρ → Guid) (row : ρ) (entries : List (Tracked ρ)) : List (Tracked ρ) :=
  if entries.any (key ·.current = key row) then entries else entries ++ [⟨.unchanged, row, row⟩]

/-- The instance that stands for `row`. -/
def instanceOf (key : ρ → Guid) (row : ρ) (entries : List (Tracked ρ)) : ρ :=
  match entries.find? (key ·.current = key row) with
  | some entry => entry.current
  | none => row

/-- Assign properties of the instance of `key row`. -/
def assign (key : ρ → Guid) (row : ρ) (entries : List (Tracked ρ)) : List (Tracked ρ) :=
  entries.map fun entry => if key entry.current = key row then { entry with current := row }
    else entry

def accepted (entry : Tracked ρ) : Tracked ρ := ⟨.unchanged, entry.current, entry.current⟩

end Tracked

structure ChangeTracker where
  sessions : List (Tracked Session) := []
  refreshTokens : List (Tracked RefreshToken) := []
deriving DecidableEq, Repr

namespace ChangeTracker

variable (tracker : ChangeTracker)

/-- Track the rows of one query result, by identity resolution. -/
def resolve (token : RefreshToken) (session : Session) : ChangeTracker where
  sessions := Tracked.resolve Session.id session tracker.sessions
  refreshTokens := Tracked.resolve RefreshToken.id token tracker.refreshTokens

/-- A fresh tracker hands out the rows as they were read. -/
theorem resolved_token (token : RefreshToken) (session : Session) :
    Tracked.instanceOf RefreshToken.id token (resolve {} token session).refreshTokens = token := by
  simp [resolve, Tracked.resolve, Tracked.instanceOf]

theorem resolved_session (token : RefreshToken) (session : Session) :
    Tracked.instanceOf Session.id session (resolve {} token session).sessions = session := by
  simp [resolve, Tracked.resolve, Tracked.instanceOf]

def assignSession (session : Session) : ChangeTracker :=
  { tracker with sessions := Tracked.assign Session.id session tracker.sessions }

def assignToken (token : RefreshToken) : ChangeTracker :=
  { tracker with refreshTokens := Tracked.assign RefreshToken.id token tracker.refreshTokens }

def addToken (token : RefreshToken) : ChangeTracker :=
  { tracker with refreshTokens := tracker.refreshTokens ++ [⟨.added, token, token⟩] }

def saveSession (now : Instant) (db : Db) (entry : Tracked Session) : Except AppException Db :=
  match entry.state with
  | .added => db.insertSession now entry.current
  | .unchanged => db.updateSession now entry.original entry.current

def saveToken (now : Instant) (db : Db) (entry : Tracked RefreshToken) : Except AppException Db :=
  match entry.state with
  | .added => db.insertRefreshToken now entry.current
  | .unchanged => db.updateRefreshToken now entry.original entry.current

/-- The statements of `SaveChanges`, principals first. -/
def changes (now : Instant) (db : Db) : Except AppException Db := do
  let db ← tracker.sessions.foldlM (saveSession now) db
  tracker.refreshTokens.foldlM (saveToken now) db

/-- After a `SaveChanges` that succeeded, whatever becomes of the transaction. -/
def acceptAllChanges : ChangeTracker where
  sessions := tracker.sessions.map Tracked.accepted
  refreshTokens := tracker.refreshTokens.map Tracked.accepted

end ChangeTracker

end AuthStartpack
