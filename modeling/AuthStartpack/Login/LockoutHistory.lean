import AuthStartpack.Login.Failures
import AuthStartpack.Services.Users.AdminUserService
import Mathlib.Data.List.Induction

/-!
Owns histories of the lockout of one user: failures, successes, queries and
administrative unlocks, in the order of a clock that never runs backwards. The
two columns that the policy keeps are compared with the history itself: the
lock in force is that of the last locking failure, and the counter is the number
of failures that count towards the next one.
-/

namespace AuthStartpack.LockoutHistory

open LockoutPolicy

inductive Operation where
  | registerFailure
  | registerSuccess
  | isLockedOut
  | unlock
deriving DecidableEq, Repr

/-- The user after an operation, and what the operation returned. -/
def Operation.apply (options : LockoutOptions) (now : Instant) (user : User) :
    Operation → User × Bool
  | .registerFailure => LockoutPolicy.registerFailure options now user
  | .registerSuccess => (LockoutPolicy.registerSuccess user, false)
  | .isLockedOut => (user, LockoutPolicy.isLockedOut options now user)
  | .unlock => (AdminUserService.updated { unlock := some true } user, false)

/-- An operation that was performed at `now`. -/
structure Entry where
  operation : Operation
  now : Instant
  returned : Bool
deriving DecidableEq, Repr

/-- The failure that locked the account. -/
abbrev Entry.Locks (entry : Entry) : Prop :=
  entry.operation = .registerFailure ∧ entry.returned = true

/-- The user after these operations, with their log, the last one first. -/
def perform (options : LockoutOptions) (user : User) (calls : List (Operation × Instant)) :
    User × List Entry :=
  calls.foldl (fun (current, log) (operation, now) =>
    let result := operation.apply options now current
    (result.1, ⟨operation, now, result.2⟩ :: log)) (user, [])

/-- The entries since the last success and the last unlock. -/
def sinceReset (log : List Entry) : List Entry :=
  log.takeWhile fun entry => entry.operation ≠ .registerSuccess && entry.operation ≠ .unlock

/-- A lock that nothing has cleared lasts at `now`. -/
def InForce (options : LockoutOptions) (now : Instant) (log : List Entry) : Prop :=
  ∃ lock ∈ sinceReset log, lock.Locks ∧ now < lock.now + options.lockoutDuration

/-- The failures since the last success, unlock or expired lock: those that came after the end of
every lock that was not cleared. -/
def counted (options : LockoutOptions) (log : List Entry) : List Entry :=
  (sinceReset log).filter fun entry => entry.operation = .registerFailure ∧
    ∀ lock ∈ sinceReset log, lock.Locks → lock.now + options.lockoutDuration ≤ entry.now

theorem perform_concat (options : LockoutOptions) (user : User)
    (calls : List (Operation × Instant)) (operation : Operation) (now : Instant) :
    perform options user (calls ++ [(operation, now)]) =
      ((operation.apply options now (perform options user calls).1).1,
        ⟨operation, now, (operation.apply options now (perform options user calls).1).2⟩ ::
          (perform options user calls).2) := by
  simp [perform]

section Log

variable {options : LockoutOptions} {log : List Entry} {now : Instant} {returned : Bool}

@[simp]
theorem sinceReset_failure :
    sinceReset (⟨.registerFailure, now, returned⟩ :: log) =
      ⟨.registerFailure, now, returned⟩ :: sinceReset log := rfl

@[simp]
theorem sinceReset_query :
    sinceReset (⟨.isLockedOut, now, returned⟩ :: log) =
      ⟨.isLockedOut, now, returned⟩ :: sinceReset log := rfl

@[simp]
theorem sinceReset_success : sinceReset (⟨.registerSuccess, now, returned⟩ :: log) = [] := rfl

@[simp]
theorem sinceReset_unlock : sinceReset (⟨.unlock, now, returned⟩ :: log) = [] := rfl

theorem mem_of_sinceReset {entry : Entry} (member : entry ∈ sinceReset log) : entry ∈ log :=
  (List.takeWhile_sublist _).subset member

/-- A query counts nothing. -/
theorem counted_query :
    counted options (⟨.isLockedOut, now, returned⟩ :: log) = counted options log := by
  unfold counted
  rw [sinceReset_query, List.filter_cons_of_neg (by simp)]
  apply List.filter_congr
  intro entry _
  simp

/-- A failure that does not lock counts, if every lock is over. -/
theorem counted_failure
    (over_locks : ∀ lock ∈ sinceReset log, lock.Locks → lock.now + options.lockoutDuration ≤ now) :
    counted options (⟨.registerFailure, now, false⟩ :: log) =
      ⟨.registerFailure, now, false⟩ :: counted options log := by
  unfold counted
  rw [sinceReset_failure, List.filter_cons_of_pos]
  · congr 1
    apply List.filter_congr
    intro entry _
    simp
  · simpa using over_locks

/-- No failure counts that came before a lock was over. -/
theorem counted_of_lock {lock : Entry} (member : lock ∈ sinceReset log) (locks : lock.Locks)
    (before : ∀ entry ∈ sinceReset log, entry.operation = .registerFailure →
      entry.now < lock.now + options.lockoutDuration) : counted options log = [] := by
  apply List.filter_eq_nil_iff.mpr
  intro entry entryMember counts
  obtain ⟨failure, after⟩ := of_decide_eq_true counts
  exact absurd (after lock member locks) (Int.not_le.mpr (before entry entryMember failure))

end Log

/-! ### What the columns say about the history -/

/-- The columns of the user agree with the log at `now`. Without a lock they count; a lock, as long
as no failure has renewed the allowance, is the last one and no failure counts after it. -/
structure Agrees (options : LockoutOptions) (now : Instant) (user : User) (log : List Entry) :
    Prop where
  past : ∀ entry ∈ log, entry.now ≤ now
  unlocked : user.lockoutEndsAt = none →
    user.failedLoginCount = (counted options log).length ∧
      user.failedLoginCount < options.maxFailedAttempts ∧
      ∀ lock ∈ sinceReset log, lock.Locks → lock.now + options.lockoutDuration ≤ now
  locked : ∀ endsAt, user.lockoutEndsAt = some endsAt →
    (∃ lock ∈ sinceReset log, lock.Locks ∧ lock.now + options.lockoutDuration = endsAt) ∧
      (∀ lock ∈ sinceReset log, lock.Locks → lock.now + options.lockoutDuration ≤ endsAt) ∧
      ∀ entry ∈ sinceReset log, entry.operation = .registerFailure → entry.now < endsAt

section Agreement

variable {options : LockoutOptions} {user : User} {log : List Entry} {now later : Instant}

theorem Agrees.waits (agrees : Agrees options now user log) (le : now ≤ later) :
    Agrees options later user log where
  past entry member := Int.le_trans (agrees.past entry member) le
  unlocked none := by
    obtain ⟨counts, below, ended⟩ := agrees.unlocked none
    exact ⟨counts, below, fun lock member locks => Int.le_trans (ended lock member locks) le⟩
  locked := agrees.locked

/-- The lock in force is the one that the user carries. -/
theorem Agrees.inForce_iff (agrees : Agrees options now user log) :
    InForce options now log ↔ user.lockoutEndsAt.any (now < ·) = true := by
  cases carries : user.lockoutEndsAt with
  | none =>
      obtain ⟨-, -, ended⟩ := agrees.unlocked carries
      refine ⟨?_, fun impossible => nomatch impossible⟩
      rintro ⟨lock, member, locks, lasts⟩
      exact absurd (ended lock member locks) (Int.not_le.mpr lasts)
  | some endsAt =>
      obtain ⟨⟨lock, member, locks, ends⟩, last, -⟩ := agrees.locked endsAt carries
      rw [Option.any_some, decide_eq_true_iff]
      constructor
      · rintro ⟨other, otherMember, otherLocks, lasts⟩
        exact Int.lt_of_lt_of_le lasts (last other otherMember otherLocks)
      · intro lasts
        exact ⟨lock, member, locks, ends ▸ lasts⟩

/-- The failures that count are none while the user carries a lock, over or not. -/
theorem Agrees.counted_of_locked (agrees : Agrees options now user log) {endsAt : Instant}
    (carries : user.lockoutEndsAt = some endsAt) : counted options log = [] := by
  obtain ⟨⟨lock, member, locks, rfl⟩, -, before⟩ := agrees.locked endsAt carries
  exact counted_of_lock member locks before

/-- One failure, when no lock is in force. -/
theorem registerFailure_of_free (enabled : options.enabled = true)
    (free : user.lockoutEndsAt.any (now < ·) = false) :
    let count := (if user.lockoutEndsAt.isSome then 0 else user.failedLoginCount) + 1
    ((registerFailure options now user).2 = true ↔ ¬ count < options.maxFailedAttempts) ∧
      (registerFailure options now user).1.lockout =
        ⟨count, if count < options.maxFailedAttempts then none
          else some (now + options.lockoutDuration)⟩ := by
  intro count
  have locked : (registerFailure options now user).2 = true ↔
      ¬ count < options.maxFailedAttempts := by
    unfold registerFailure
    rw [enabled, free]
    cases carries : user.lockoutEndsAt with
    | none =>
        simp only [count, carries, Option.isSome_none, Bool.false_eq_true, if_false, Bool.not_true]
        split <;> simp_all
    | some endsAt =>
        simp only [count, carries, Option.isSome_some, if_true, Bool.not_true, Bool.false_eq_true,
          if_false]
        split <;> simp_all
  refine ⟨locked, ?_⟩
  rw [registerFailure_eq]
  change user.lockout.afterFailure options now = _
  unfold Lockout.afterFailure User.lockout
  rw [enabled, free]
  rfl

/-- A failure under a lock in force changes nothing. -/
theorem registerFailure_of_inForce (inForce : user.lockoutEndsAt.any (now < ·) = true) :
    registerFailure options now user = (user, false) := by
  unfold registerFailure
  rw [inForce]
  simp

/-- A lock ends after it begins, and the failure that locks is the last one. -/
theorem Agrees.locks (positive : 0 < options.lockoutDuration)
    (past : ∀ entry ∈ log, entry.now ≤ now)
    (ended : ∀ lock ∈ sinceReset log, lock.Locks → lock.now + options.lockoutDuration ≤ now)
    {locked : User} (carries : locked.lockoutEndsAt = some (now + options.lockoutDuration)) :
    Agrees options now locked (⟨.registerFailure, now, true⟩ :: log) where
  past := by simpa using past
  unlocked none := by rw [carries] at none; cases none
  locked endsAt carried := by
    have later : now < now + options.lockoutDuration := Int.lt_add_of_pos_right now positive
    rw [carries] at carried
    cases carried
    rw [sinceReset_failure]
    refine ⟨⟨_, .head _, ⟨rfl, rfl⟩, rfl⟩, ?_, ?_⟩
    · intro lock member locks
      rcases List.mem_cons.mp member with rfl | old
      · exact Int.le_refl _
      · exact Int.le_trans (ended lock old locks) (Int.le_of_lt later)
    · intro entry member _
      rcases List.mem_cons.mp member with rfl | old
      · exact later
      · exact Int.lt_of_le_of_lt (past entry (mem_of_sinceReset old)) later

/-- A failure that does not lock is one more that counts. -/
theorem Agrees.counts (past : ∀ entry ∈ log, entry.now ≤ now)
    (ended : ∀ lock ∈ sinceReset log, lock.Locks → lock.now + options.lockoutDuration ≤ now)
    {free : User} (columns : free.lockout = ⟨(counted options log).length + 1, none⟩)
    (below : (counted options log).length + 1 < options.maxFailedAttempts) :
    Agrees options now free (⟨.registerFailure, now, false⟩ :: log) where
  past := by simpa using past
  unlocked _ := by
    have count : free.failedLoginCount = (counted options log).length + 1 :=
      congrArg Lockout.failedLoginCount columns
    rw [counted_failure ended, count]
    refine ⟨rfl, below, ?_⟩
    intro lock member locks
    rcases List.mem_cons.mp member with rfl | old
    · cases locks.2
    · exact ended lock old locks
  locked endsAt carries := by
    have none : free.lockoutEndsAt = none := congrArg Lockout.endsAt columns
    rw [none] at carries
    cases carries

/-- Without a lock in force the allowance that is left is that of the counted failures. -/
theorem Agrees.free (agrees : Agrees options now user log)
    (free : user.lockoutEndsAt.any (now < ·) = false) :
    (if user.lockoutEndsAt.isSome then 0 else user.failedLoginCount) =
      (counted options log).length ∧
      ∀ lock ∈ sinceReset log, lock.Locks → lock.now + options.lockoutDuration ≤ now := by
  cases carries : user.lockoutEndsAt with
  | none =>
      obtain ⟨counts, -, ended⟩ := agrees.unlocked carries
      exact ⟨counts, ended⟩
  | some endsAt =>
      rw [carries, Option.any_some, decide_eq_false_iff_not] at free
      obtain ⟨-, last, -⟩ := agrees.locked endsAt carries
      rw [agrees.counted_of_locked carries]
      refine ⟨rfl, fun lock member locks => ?_⟩
      exact Int.le_trans (last lock member locks) (Int.not_lt.mp free)

/-- The allowance is never used up without a lock. -/
theorem Agrees.counted_lt (attempts : 1 ≤ options.maxFailedAttempts)
    (agrees : Agrees options now user log) :
    (counted options log).length < options.maxFailedAttempts := by
  cases carries : user.lockoutEndsAt with
  | none =>
      obtain ⟨counts, below, -⟩ := agrees.unlocked carries
      rw [← counts]
      exact below
  | some endsAt =>
      rw [agrees.counted_of_locked carries]
      exact attempts

theorem Agrees.registerFailure (enabled : options.enabled = true)
    (positive : 0 < options.lockoutDuration) (agrees : Agrees options now user log) :
    Agrees options now (LockoutPolicy.registerFailure options now user).1
      (⟨.registerFailure, now, (LockoutPolicy.registerFailure options now user).2⟩ :: log) := by
  cases lasts : user.lockoutEndsAt.any (now < ·) with
  | true =>
      rw [registerFailure_of_inForce lasts]
      obtain ⟨endsAt, carries, later⟩ := (Option.any_eq_true _ _).mp lasts
      replace later : now < endsAt := of_decide_eq_true later
      obtain ⟨⟨lock, member, locks, ends⟩, last, before⟩ := agrees.locked endsAt carries
      refine ⟨by simpa using agrees.past, fun none => by simp [carries] at none, ?_⟩
      intro other carriesOther
      cases carries.symm.trans carriesOther
      refine ⟨⟨lock, .tail _ member, locks, ends⟩, ?_, ?_⟩
      · intro entry entryMember entryLocks
        rcases List.mem_cons.mp entryMember with rfl | old
        · cases entryLocks.2
        · exact last entry old entryLocks
      · intro entry entryMember failure
        rcases List.mem_cons.mp entryMember with rfl | old
        · exact later
        · exact before entry old failure
  | false =>
      obtain ⟨returns, columns⟩ := registerFailure_of_free enabled lasts
      obtain ⟨left, ended⟩ := agrees.free lasts
      rw [left] at returns columns
      by_cases below : (counted options log).length + 1 < options.maxFailedAttempts
      · rw [if_pos below] at columns
        have returned : (LockoutPolicy.registerFailure options now user).2 = false := by
          rw [Bool.eq_false_iff]
          exact fun locked => returns.mp locked below
        rw [returned]
        exact Agrees.counts agrees.past ended columns below
      · rw [if_neg below] at columns
        rw [returns.mpr below]
        exact Agrees.locks positive agrees.past ended (congrArg Lockout.endsAt columns)

/-- A success and an unlock start again. -/
theorem Agrees.reset {operation : Operation} (attempts : 1 ≤ options.maxFailedAttempts)
    (past : ∀ entry ∈ log, entry.now ≤ now) (columns : user.lockout = ⟨0, none⟩)
    (resets : sinceReset (⟨operation, now, false⟩ :: log) = []) :
    Agrees options now user (⟨operation, now, false⟩ :: log) where
  past := by simpa using past
  unlocked _ := by
    have count : user.failedLoginCount = 0 := congrArg Lockout.failedLoginCount columns
    unfold counted
    rw [resets, count]
    exact ⟨rfl, attempts, by simp⟩
  locked endsAt carries := by
    have none : user.lockoutEndsAt = none := congrArg Lockout.endsAt columns
    rw [none] at carries
    cases carries

theorem Agrees.isLockedOut {returned : Bool} (agrees : Agrees options now user log) :
    Agrees options now user (⟨.isLockedOut, now, returned⟩ :: log) where
  past := by simpa using agrees.past
  unlocked none := by
    obtain ⟨counts, below, ended⟩ := agrees.unlocked none
    rw [counted_query]
    refine ⟨counts, below, ?_⟩
    simpa using ended
  locked endsAt carries := by
    simpa [Entry.Locks] using agrees.locked endsAt carries

theorem Agrees.apply (enabled : options.enabled = true)
    (attempts : 1 ≤ options.maxFailedAttempts) (positive : 0 < options.lockoutDuration)
    (agrees : Agrees options now user log) (operation : Operation) :
    Agrees options now (operation.apply options now user).1
      (⟨operation, now, (operation.apply options now user).2⟩ :: log) := by
  cases operation with
  | registerFailure => exact agrees.registerFailure enabled positive
  | registerSuccess => exact Agrees.reset attempts agrees.past rfl rfl
  | isLockedOut => exact agrees.isLockedOut
  | unlock => exact Agrees.reset attempts agrees.past rfl rfl

end Agreement

/-! ### Histories -/

variable {options : LockoutOptions} {user : User} {calls : List (Operation × Instant)}
variable {now : Instant}

theorem agrees_of_history (enabled : options.enabled = true)
    (attempts : 1 ≤ options.maxFailedAttempts) (positive : 0 < options.lockoutDuration)
    (fresh : user.lockout = ⟨0, none⟩)
    (ordered : calls.Pairwise fun earlier later => earlier.2 ≤ later.2)
    (past : ∀ call ∈ calls, call.2 ≤ now) :
    Agrees options now (perform options user calls).1 (perform options user calls).2 := by
  induction calls using List.reverseRecOn generalizing now with
  | nil =>
      have count : user.failedLoginCount = 0 := congrArg Lockout.failedLoginCount fresh
      have none : user.lockoutEndsAt = none := congrArg Lockout.endsAt fresh
      refine ⟨by simp [perform], fun _ => ⟨count, ?_, by simp [perform, sinceReset]⟩, ?_⟩
      · change user.failedLoginCount < _
        rw [count]
        exact attempts
      · intro endsAt carries
        rw [show (perform options user []).1.lockoutEndsAt = _ from none] at carries
        cases carries
  | append_singleton calls call inductionHypothesis =>
      obtain ⟨operation, at'⟩ := call
      obtain ⟨before, -, between⟩ := List.pairwise_append.mp ordered
      have reached : Agrees options at' (perform options user calls).1
          (perform options user calls).2 :=
        inductionHypothesis before fun earlier member => between earlier member _ (.head _)
      rw [perform_concat]
      apply Agrees.waits _ (past (operation, at') (by simp))
      exact reached.apply enabled attempts positive operation

/-- After every history of operations on a user who has not failed yet: a failure locks just if no
lock is in force and it is the last one of the allowance; the lock lasts for the configured duration
from then on, and a failure under it changes nothing; the account is locked out just while a lock is
in force; and where there is no lock, the allowance is not used up. -/
theorem lockout_of_history (enabled : options.enabled = true)
    (attempts : 1 ≤ options.maxFailedAttempts) (positive : 0 < options.lockoutDuration)
    (fresh : user.lockout = ⟨0, none⟩)
    (ordered : calls.Pairwise fun earlier later => earlier.2 ≤ later.2)
    (past : ∀ call ∈ calls, call.2 ≤ now) :
    let current := (perform options user calls).1
    let log := (perform options user calls).2
    ((registerFailure options now current).2 = true ↔
        ¬ InForce options now log ∧
          (counted options log).length + 1 = options.maxFailedAttempts) ∧
      ((registerFailure options now current).2 = true →
        (registerFailure options now current).1.lockoutEndsAt =
          some (now + options.lockoutDuration)) ∧
      (InForce options now log → (registerFailure options now current).1 = current) ∧
      (isLockedOut options now current = true ↔ InForce options now log) ∧
      (current.failedLoginCount < options.maxFailedAttempts ∨ current.lockoutEndsAt.isSome) := by
  intro current log
  have agrees : Agrees options now current log :=
    agrees_of_history enabled attempts positive fresh ordered past
  have inForce := agrees.inForce_iff
  refine ⟨?_, ?_, ?_, ?_, ?_⟩
  · cases lasts : current.lockoutEndsAt.any (now < ·) with
    | true =>
        rw [registerFailure_of_inForce lasts]
        simp [inForce, lasts]
    | false =>
        obtain ⟨returns, -⟩ := registerFailure_of_free enabled lasts
        have below := agrees.counted_lt attempts
        rw [returns, (agrees.free lasts).1, inForce, lasts]
        simp
        omega
  · intro locks
    cases lasts : current.lockoutEndsAt.any (now < ·) with
    | true =>
        rw [registerFailure_of_inForce lasts] at locks
        cases locks
    | false =>
        obtain ⟨returns, columns⟩ := registerFailure_of_free enabled lasts
        rw [if_neg (returns.mp locks)] at columns
        exact congrArg Lockout.endsAt columns
  · intro lasts
    rw [registerFailure_of_inForce (inForce.mp lasts)]
  · rw [inForce]
    simp [isLockedOut, enabled]
  · cases carries : current.lockoutEndsAt with
    | none => exact .inl (agrees.unlocked carries).2.1
    | some endsAt => exact .inr rfl

/-- Two failures, the second one at the end of the lock of an allowance of one. -/
theorem lockout_of_history_sample :
    let options : LockoutOptions := ⟨true, 1, 900⟩
    let user : User := { id := 1, email := "a@b", securityStamp := 2 }
    let calls : List (Operation × Instant) := [(.registerFailure, 0), (.isLockedOut, 899)]
    (registerFailure options 900 (perform options user calls).1).2 = true ↔
      ¬ InForce options 900 (perform options user calls).2 ∧
        (counted options (perform options user calls).2).length + 1 = 1 :=
  (@lockout_of_history ⟨true, 1, 900⟩ { id := 1, email := "a@b", securityStamp := 2 }
    [(.registerFailure, 0), (.isLockedOut, 899)] 900 rfl (Nat.le_refl 1) (by decide) rfl (by decide)
    (by decide)).1

end AuthStartpack.LockoutHistory
