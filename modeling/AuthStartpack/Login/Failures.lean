import AuthStartpack.Program.Serial
import AuthStartpack.Services.Auth.LoginService

/-!
Owns what a login with a wrong password does: it counts one failure on the row
that it read, unless the account is locked, and throws. The lockout of an
account is a small state machine of its own, of which the policy's functions on
users are the code.
-/

namespace AuthStartpack

/-- The columns of a user that the lockout policy owns. -/
structure Lockout where
  failedLoginCount : ℕ
  endsAt : Option Instant
deriving DecidableEq, Repr

/-- One failure at `now`: nothing while a lock lasts, else one more of an allowance that an expired
lock renews. -/
def Lockout.afterFailure (options : LockoutOptions) (now : Instant) (lockout : Lockout) : Lockout :=
  if !options.enabled || lockout.endsAt.any (now < ·) then lockout
  else
    let count := (if lockout.endsAt.isSome then 0 else lockout.failedLoginCount) + 1
    ⟨count, if count < options.maxFailedAttempts then none
      else some (now + options.lockoutDuration)⟩

/-- A fresh allowance is used up by as many failures as it has, the last of which locks. -/
theorem Lockout.serially_fresh {κ : Type} {options : LockoutOptions}
    (enabled : options.enabled = true) {count : ℕ} {order : List (κ × Instant)}
    (nonempty : order ≠ []) (fills : count + order.length = options.maxFailedAttempts) :
    ∃ entry ∈ order, serially (afterFailure options) ⟨count, none⟩ order =
      ⟨options.maxFailedAttempts, some (entry.2 + options.lockoutDuration)⟩ := by
  induction order generalizing count with
  | nil => exact absurd rfl nonempty
  | cons head tail inductionHypothesis =>
      have step : afterFailure options head.2 ⟨count, none⟩ =
          ⟨count + 1, if count + 1 < options.maxFailedAttempts then none
            else some (head.2 + options.lockoutDuration)⟩ := by
        simp [afterFailure, enabled]
      rw [List.length_cons] at fills
      cases tail with
      | nil =>
          have full : count + 1 = options.maxFailedAttempts := fills
          refine ⟨head, List.mem_cons_self, ?_⟩
          rw [serially_cons, step, full, if_neg (Nat.lt_irrefl _), serially_nil]
      | cons next rest =>
          rw [List.length_cons] at fills inductionHypothesis
          have more : count + 1 < options.maxFailedAttempts := by omega
          have remaining : count + 1 + (rest.length + 1) = options.maxFailedAttempts := by omega
          obtain ⟨entry, member, locks⟩ := inductionHypothesis (List.cons_ne_nil _ _) remaining
          refine ⟨entry, List.mem_cons_of_mem _ member, ?_⟩
          rw [serially_cons, step, if_pos more]
          exact locks

def User.lockout (user : User) : Lockout := ⟨user.failedLoginCount, user.lockoutEndsAt⟩

/-- The user with these lockout columns. -/
def User.withLockout (user : User) (lockout : Lockout) : User :=
  { user with failedLoginCount := lockout.failedLoginCount, lockoutEndsAt := lockout.endsAt }

namespace LockoutPolicy

variable {options : LockoutOptions} {now : Instant}

theorem registerFailure_eq (user : User) :
    (registerFailure options now user).1 =
      user.withLockout (user.lockout.afterFailure options now) := by
  obtain ⟨id, email, verified, hash, name, stamp, count, endsAt, created, updated⟩ := user
  unfold registerFailure Lockout.afterFailure User.lockout User.withLockout
  cases options.enabled with
  | false => rfl
  | true =>
      cases endsAt with
      | none =>
          simp only [Bool.not_true, Bool.false_eq_true, Option.any_none,
            Option.isSome_none, if_false,
            Bool.or_self]
          split <;> rfl
      | some endsAt =>
          simp only [Bool.not_true, Bool.false_eq_true, Option.any_some,
            Option.isSome_some, if_true,
            if_false, Bool.false_or]
          split
          · rfl
          · split <;> rfl

/-- A locked account does not change. -/
theorem afterFailure_of_locked {user : User} (locked : isLockedOut options now user = true) :
    user.lockout.afterFailure options now = user.lockout := by
  simp only [isLockedOut, Bool.and_eq_true] at locked
  simp [Lockout.afterFailure, User.lockout, locked.2]

end LockoutPolicy

namespace LoginService

/-- What is to be shown of a login with a wrong password once it has read `row` in `seen`: where the
failure changes nothing, and where it is counted. -/
structure Rejection {α : Type} (services : Services) (law : Law Input World Event) (call : ℕ)
    (K : State → State → Prop) (row : User) (seen : State)
    (post : Except AppException α → State → Prop) : Prop where
  idle : ∀ earlier reading later exception, law.admits earlier call reading [] →
    row.lockout.afterFailure services.lockoutOptions reading.now = row.lockout →
    K seen later → post (.error exception) later
  counted : ∀ earlier reading current saving db, law.admits earlier call reading [] →
    K seen current →
    let counted := row.withLockout (row.lockout.afterFailure services.lockoutOptions reading.now)
    counted ≠ row → current.store.db.updateUser saving.now row counted = .ok db →
    law.admits current call saving [.loginFailureCounted row reading.now] →
    let written := current.advance call saving
      ({ current.store with db }, [.loginFailureCounted row reading.now])
    law.guarantee call current written ∧
      ∀ later exception, K written later → post (.error exception) later
  refused : ∀ current later now counted exception, K seen current →
    current.store.db.updateUser now row counted = .error exception → K current later →
    post (.error exception) later

section Rules

variable {α : Type} {services : Services} {http : HttpContext} {law : Law Input World Event}
variable {call : ℕ} {K : State → State → Prop} {state seen : State} {row : User}
variable {post : Except AppException α → State → Prop}

/-- After counting, whatever else happens ends in the postcondition. -/
def settles (K : State → State → Prop) (post : Except AppException α → State → Prop) :
    Except AppException Unit → State → Prop
  | .ok (), current => ∀ later exception, K current later → post (.error exception) later
  | .error exception, current => post (.error exception) current

theorem wp_countFailure (calm : Calm law call K)
    (correct : Rejection services law call K row seen post) (reached : K seen state) :
    (countFailure services http row).wp law call (settles K post) state := by
  simp only [countFailure, Program.wp_bind, Action.wp_utcNow]
  intro earlier relied reading admitted
  have here := calm.trans _ _ _ reached (calm.rely _ _ relied)
  obtain ⟨kept, stays⟩ := calm.quiet earlier reading earlier.store admitted (.refl _)
  rw [Shared.advance_silent] at kept stays
  refine ⟨kept, ?_⟩
  have arrived := calm.trans _ _ _ here stays
  simp only [Program.andThen_ok, Program.wp_bind, LockoutPolicy.registerFailure_eq]
  refine Action.wp_saveChanges calm ?_ ?_
  · intro current saving db reach saved savedAdmitted
    have present := calm.trans _ _ _ arrived reach
    have audits : ∀ after, (∀ later exception, K after later → post (.error exception) later) →
        (if (LockoutPolicy.registerFailure services.lockoutOptions reading.now row).2 = true then
          AuditLogger.logAsync http .accountLocked (some row.id) else pure ()).wp law call
          (settles K post) after := by
      intro after ends
      split
      · refine AuditLogger.wp_logAsync calm ?_
        intro logged log later exception rest
        exact ends later exception (calm.trans _ _ _ log rest)
      · exact ends
    by_cases same :
      row.withLockout (row.lockout.afterFailure services.lockoutOptions reading.now) = row
    · simp only [same, if_true] at saved savedAdmitted ⊢
      have unchanged : db = current.store.db := by
        simp only [Db.updateUser, if_true, Except.ok.injEq] at saved
        exact saved.symm
      subst unchanged
      obtain ⟨silent, rests⟩ := calm.quiet current saving current.store savedAdmitted (.refl _)
      refine ⟨silent, audits _ ?_⟩
      intro later exception rest
      have idle : row.lockout.afterFailure services.lockoutOptions reading.now = row.lockout := by
        have columns := congrArg User.lockout same
        exact columns
      exact correct.idle earlier reading later exception admitted idle
        (calm.trans _ _ _ (calm.trans _ _ _ present rests) rest)
    · simp only [same, if_false] at savedAdmitted ⊢
      obtain ⟨written, ends⟩ := correct.counted earlier reading current saving db admitted present
        same saved savedAdmitted
      exact ⟨written, audits _ ends⟩
  · intro current later exception now reach refused rest
    exact correct.refused current later now _ exception
      (calm.trans _ _ _ arrived reach) rest refused

theorem wp_rejectAsync (calm : Calm law call K)
    (correct : Rejection services law call K row seen post) {alreadyLocked : Bool}
    (locked : alreadyLocked = true → ∀ later exception, K seen later →
      post (.error exception) later)
    (reached : K seen state) :
    (rejectAsync services http (some row) alreadyLocked : Action α).wp law call post state := by
  have throws : ∀ current, (∀ later exception, K current later → post (.error exception) later) →
      (do AuditLogger.logAsync http .loginFailed ((some row).map (·.id))
          throw .invalidCredentials : Action α).wp law call post current := by
    intro current ends
    rw [Program.wp_bind]
    refine AuditLogger.wp_logAsync calm ?_
    intro later log
    exact ends later _ log
  cases alreadyLocked with
  | true =>
      simp only [rejectAsync]
      exact throws state fun later exception rest =>
        locked rfl later exception (calm.trans _ _ _ reached rest)
  | false =>
      simp only [rejectAsync]
      rw [Program.wp_bind]
      refine Program.wp_mono (wp_countFailure calm correct reached) ?_
      intro outcome current settled
      cases outcome with
      | ok value => exact throws current settled
      | error exception => exact settled

end Rules

section Wrong

variable {services : Services} {http : HttpContext} {law : Law Input World Event}
variable {call : ℕ} {K : State → State → Prop} {state : State}
variable {post : Except AppException LoginResult → State → Prop}

/-- A login whose password does not match the row that it reads is rejected. -/
theorem wp_loginAsync_wrong (calm : Calm law call K) {email password : String}
    (reads : ∀ seen, K state seen → ∃ row credential,
      Action.singleOrDefault (withEmail services (trim email) seen.store.db) =
        .ok (some (row, credential)) ∧
      services.passwordHasher.verify password
        (row.passwordHash.getD services.dummyPasswordHash) = false ∧
      Rejection services law call K row seen post) :
    (loginAsync services http email password).wp law call post state := by
  simp only [loginAsync, Program.wp_bind]
  refine Action.calm_queryOrThrow calm ?_
  intro queried query
  obtain ⟨row, credential, found, wrong, correct⟩ := reads queried query
  simp only [found, Program.andThen_ok, Program.wp_bind, Action.wp_utcNow]
  intro earlier relied reading admitted
  obtain ⟨kept, stays⟩ := calm.quiet earlier reading earlier.store admitted (.refl _)
  rw [Shared.advance_silent] at kept stays
  refine ⟨kept, ?_⟩
  have reached := calm.trans _ _ _ (calm.rely _ _ relied) stays
  have rejects : (rejectAsync services http (some row)
      (LockoutPolicy.isLockedOut services.lockoutOptions reading.now row) :
        Action LoginResult).wp law call post (earlier.observed reading) := by
    refine wp_rejectAsync calm correct ?_ reached
    intro locked later exception rest
    exact correct.idle earlier reading later exception admitted
      (LockoutPolicy.afterFailure_of_locked locked) rest
  simp only [Option.map_some, Option.any_some, Option.bind_some, wrong, Bool.not_false,
    Bool.true_or, if_true]
  cases row.passwordHash with
  | none => exact rejects
  | some passwordHash => exact rejects

end Wrong

end LoginService

end AuthStartpack
