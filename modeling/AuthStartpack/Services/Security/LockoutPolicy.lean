import AuthStartpack.Services.Dependencies

/-!
Owns `LockoutPolicy`: the lockout state machine of an account. Its functions
take the clock reading they compare with, and return the user they change; their
callers read the clock and save.
-/

namespace AuthStartpack

namespace LockoutPolicy

def isLockedOut (options : LockoutOptions) (now : Instant) (user : User) : Bool :=
  options.enabled && user.lockoutEndsAt.any (now < ·)

/-- `RegisterFailure`, with whether this failure is the one that locked the account. -/
def registerFailure (options : LockoutOptions) (now : Instant) (user : User) : User × Bool :=
  if !options.enabled then (user, false)
  else if user.lockoutEndsAt.any (now < ·) then (user, false)
  else
    -- An expired lock grants a fresh allowance.
    let allowed :=
      if user.lockoutEndsAt.isSome then { user with failedLoginCount := 0, lockoutEndsAt := none }
      else user
    let counted := { allowed with failedLoginCount := allowed.failedLoginCount + 1 }
    if counted.failedLoginCount < options.maxFailedAttempts then (counted, false)
    else ({ counted with lockoutEndsAt := some (now + options.lockoutDuration) }, true)

def registerSuccess (user : User) : User :=
  { user with failedLoginCount := 0, lockoutEndsAt := none }

end LockoutPolicy

end AuthStartpack
