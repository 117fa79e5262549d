import AuthStartpack.Services.Crypto.Argon2PasswordHasher
import AuthStartpack.Services.UserFrames

/-!
Owns the rewriting of stored hashes by logins. A login that succeeds leaves a
hash of its password that no later login rewrites, whatever hash it found.
-/

namespace AuthStartpack

open Argon2PasswordHasher

/-- Written hashes have the format of the package, and verify. -/
structure Argon2.Documented (argon2 : Argon2) : Prop where
  encodes : ∀ secret cost salt, 0 < cost.memoryCost → 0 < cost.timeCost → 0 < cost.parallelism →
    ∃ saltText digest, '$' ∉ saltText.toList ∧ '$' ∉ digest.toList ∧
      argon2.hash secret cost salt =
        encode cost.memoryCost cost.timeCost cost.parallelism saltText digest
  verifies : ∀ secret cost salt, 0 < cost.memoryCost → 0 < cost.timeCost → 0 < cost.parallelism →
    argon2.verify (argon2.hash secret cost salt) secret = some true

structure PasswordHashingOptions.Positive (options : PasswordHashingOptions) : Prop where
  memory : 0 < options.passwordMemoryKib
  iterations : 0 < options.passwordIterations
  parallelism : 0 < options.passwordParallelism

/-- A new hash is not made again. -/
theorem Argon2.Documented.fresh {argon2 : Argon2} (documented : argon2.Documented)
    {options : PasswordHashingOptions} (positive : options.Positive) (password : String)
    (salt : ℕ) :
    needsRehash options ((hasher argon2 options).hash password salt) = false := by
  obtain ⟨saltText, digest, -, -, text⟩ := documented.encodes password (passwordCost options) salt
    positive.memory positive.iterations positive.parallelism
  apply Bool.eq_false_iff.mpr
  intro again
  have low : needsRehash options (argon2.hash password (passwordCost options) salt) = true := again
  rw [text] at low
  have lower := (needsRehash_encode options positive.memory positive.iterations positive.parallelism
    saltText digest).mp low
  simp only [Int32.lt_irrefl, or_self] at lower

/-! ### The hash of an address -/

/-- The one user with this address has this hash. -/
def StoredHash (lower : String → String) (email hash : String) (state : State) : Prop :=
  ∃ user, state.store.db.users.filter (sameEmail lower ·.email email) = [user] ∧
    user.passwordHash = some hash

/-- An operation that leaves the users alone. -/
def UsersKept (before after : State) : Prop := after.store.db.users = before.store.db.users

variable {admits : State → ℕ → Input → List Event → Prop} {call : ℕ} {lower : String → String}
  {email hash : String}
  {before after state : State} {user current : User}

instance : Frames (.alone admits fun _ _ => True) UsersKept Db.users fun _ => False :=
  @Frames.alone admits (fun before after : Db => after.users = before.users) _ Db.users
    (fun early late => late.trans early) (fun _ _ => rfl) fun _ _ same => same

theorem StoredHash.kept (stored : StoredHash lower email hash before)
    (kept : UsersKept before after) :
    StoredHash lower email hash after := by
  obtain ⟨user, single, hashed⟩ := stored
  refine ⟨user, ?_, hashed⟩
  rw [kept]
  exact single

/-- Whatever the hash of the address is, it stays. -/
def HashKept (lower : String → String) (email : String) (before after : State) : Prop :=
  ∀ hash, StoredHash lower email hash before → StoredHash lower email hash after

theorem HashKept.of_usersKept (kept : UsersKept before after) : HashKept lower email before after :=
  fun _ stored => stored.kept kept

theorem HashKept.trans {last : State} (early : HashKept lower email before after)
    (late : HashKept lower email after last) : HashKept lower email before last :=
  fun hash stored => late hash (early hash stored)

theorem HashKept.of_single {row : User}
    (single : before.store.db.users.filter (sameEmail lower ·.email email) = [user])
    (rowSingle : after.store.db.users.filter (sameEmail lower ·.email email) = [row])
    (same : row.passwordHash = user.passwordHash) : HashKept lower email before after := by
  rintro hash ⟨other, otherSingle, hashed⟩
  rw [single] at otherSingle
  cases otherSingle
  exact ⟨row, rowSingle, same.trans hashed⟩

/-- The save of a login changes the row of the user that it has read. -/
theorem filter_updateUser {db saved : Db} {now : Instant}
    (single : db.users.filter (sameEmail lower ·.email email) = [user])
    (updates : LoginUpdate user current)
    (save : db.updateUser now user current = .ok saved) :
    ∃ row, saved.users.filter (sameEmail lower ·.email email) = [row] ∧
      row.passwordHash = current.passwordHash := by
  obtain ⟨-, rfl⟩ := Db.updateUser_eq_ok.mp save
  have address : ∀ stored : User, (user.merge current now stored).email = stored.email := by
    intro stored
    rw [updates.same]
    simp [User.merge]
  have sameFilter : (fun row : User => sameEmail lower row.email email) ∘ (fun stored =>
      if (stored.id = user.id && current ≠ user : Bool) then user.merge current now stored
        else stored) =
        fun row => sameEmail lower row.email email := by
    funext stored
    simp only [Function.comp_apply]
    split
    · rw [address]
    · rfl
  rw [Table.updateWhere, List.filter_map, sameFilter, single]
  refine ⟨_, rfl, ?_⟩
  by_cases unchanged : current = user
  · subst unchanged
    simp
  · simp only [unchanged, ne_eq, not_false_eq_true, decide_true, Bool.and_self, if_true]
    show changed user.passwordHash current.passwordHash user.passwordHash = current.passwordHash
    unfold changed
    split
    · rename_i same
      exact same.symm
    · rfl

/-! ### Logins -/

namespace LoginService

variable {services : Services} {http : HttpContext} {α : Type}

theorem countFailure_kept
    (single : state.store.db.users.filter (sameEmail services.lower ·.email email) = [user]) :
    (countFailure services http user).wp (.alone admits fun _ _ => True) call
      (fun _ after => HashKept services.lower email state after) state := by
  simp only [countFailure, Program.wp_bind]
  apply alone_utcNow
  intro reading _
  have updates : LoginUpdate user
      (LockoutPolicy.registerFailure services.lockoutOptions reading.now user).1 := by
    rw [LockoutPolicy.registerFailure_eq]
    exact ⟨rfl, id⟩
  have sameHash :
      (LockoutPolicy.registerFailure services.lockoutOptions reading.now user).1.passwordHash =
      user.passwordHash := by
    rw [LockoutPolicy.registerFailure_eq]
    rfl
  rw [Program.andThen_ok, Program.wp_bind]
  apply alone_saveChanges
  · intro input db saved _
    obtain ⟨row, found, same⟩ := filter_updateUser single updates saved
    have counted : ∀ events, HashKept services.lower email state
        ((state.observed reading).advance call input
          ({ (state.observed reading).store with db }, events)) :=
      fun _ => .of_single single found (same.trans sameHash)
    rw [Program.andThen_ok]
    split
    · refine Program.wp_mono (Keeps.logAsync (K := UsersKept) http _ _ call _) ?_
      intro outcome after kept
      exact (counted _).trans (.of_usersKept kept)
    · exact counted _
  · intro input exception _ _
    exact fun _ stored => stored

/-- A rejected login throws, and keeps the hash. -/
theorem rejectAsync_kept (found : Option User) (locked : Bool)
    (known : ∀ user ∈ found,
      state.store.db.users.filter (sameEmail services.lower ·.email email) = [user]) :
    (rejectAsync services http found locked : Action α).wp (.alone admits fun _ _ => True) call
      (fun outcome after => (∀ value, outcome ≠ .ok value) ∧
        HashKept services.lower email state after) state := by
  have ends : ∀ current, HashKept services.lower email state current →
      (do AuditLogger.logAsync http .loginFailed (found.map (·.id))
          throw .invalidCredentials : Action α).wp (.alone admits fun _ _ => True) call
        (fun outcome after => (∀ value, outcome ≠ .ok value) ∧
          HashKept services.lower email state after) current := by
    intro current reached
    refine Program.wp_bind_of (Keeps.logAsync (K := UsersKept) http _ _ call current) ?_ ?_
    · intro _ later same
      exact ⟨fun _ impossible => (nomatch impossible), reached.trans (.of_usersKept same)⟩
    · intro _ later same
      exact ⟨fun _ impossible => (nomatch impossible), reached.trans (.of_usersKept same)⟩
  unfold rejectAsync
  split
  · rename_i user
    refine Program.wp_bind_of (countFailure_kept (known user rfl)) ?_ ?_
    · intro _ later reached
      exact ends later reached
    · intro _ later reached
      exact ⟨fun _ impossible => (nomatch impossible), reached⟩
  · exact ends state fun _ stored => stored

/-- What an accepted login does with the hash that it has verified. -/
def Settles (services : Services) (email password hash : String) (after : State) : Prop :=
  services.passwordHasher.needsRehash hash = false ∧ StoredHash services.lower email hash after ∨
    services.passwordHasher.needsRehash hash = true ∧
      ∃ salt, StoredHash services.lower email (services.passwordHasher.hash password salt) after

/-- The save of an accepted login, before a rest that leaves the users alone. -/
theorem saveLogin_settles {proceed : Action LoginResult} {password stored : String}
    (rest : Keeps (.alone admits fun _ _ => True) UsersKept proceed)
    (single : state.store.db.users.filter (sameEmail services.lower ·.email email) = [user])
    (updates : LoginUpdate user current) (currentHash : current.passwordHash = some stored)
    (settles : ∀ after, StoredHash services.lower email stored after →
      Settles services email password hash after)
    (events : Db → List Event) :
    (Action.saveChanges (fun savedAt db => db.updateUser savedAt user current) events >>=
        fun _ => proceed).wp (.alone admits fun _ _ => True) call
      (fun _ after => Settles services email password hash after) state := by
  rw [Program.wp_bind]
  apply alone_saveChanges
  · intro input db saved _
    obtain ⟨row, found, rowHash⟩ := filter_updateUser single updates saved
    rw [Program.andThen_ok]
    refine Program.wp_mono (rest call _) ?_
    intro _ after kept
    refine settles after (StoredHash.kept ?_ kept)
    exact ⟨row, found, rowHash.trans currentHash⟩
  · intro input exception refused _
    have listed : user ∈ state.store.db.users.filter (sameEmail services.lower ·.email email) := by
      rw [single]
      exact List.mem_cons_self
    exact absurd rfl (Db.updateUser_refused refused user (List.mem_of_mem_filter listed))

theorem acceptAsync_settles (credential : Option TotpCredential) (password : String)
    (single : state.store.db.users.filter (sameEmail services.lower ·.email email) = [user])
    (hashed : user.passwordHash = some hash) :
    (acceptAsync services http user credential password hash).wp
      (.alone admits fun _ _ => True) call
      (fun _ after => Settles services email password hash after) state := by
  unfold acceptAsync
  dsimp only
  generalize proceeds :
    (ite (credential.any (·.confirmedAt.isSome) = true) _ _ : Action LoginResult) =
    proceed
  have rest : Keeps (.alone admits fun _ _ => True) UsersKept proceed := by
    subst proceeds
    refine .ite (.bind ?_ fun _ => .bind (.logAsync http _ _) fun _ => .pure _)
      (.bind ?_ fun _ => .bind (.logAsync http _ _) fun _ => .pure _)
    · exact MfaTicketService.issueAsync_frame (fun _ _ => rfl) services _
    · exact AuthenticationSessionFactory.createAsync_frame (fun _ _ => rfl)
        (fun _ _ => rfl) services http _ _
  split
  · rename_i low
    rw [Program.wp_bind]
    apply alone_draw
    intro input _
    rw [Program.andThen_ok, Program.pure_bind]
    apply saveLogin_settles rest
    · exact single
    · exact ⟨rfl, fun _ => rfl⟩
    · exact rfl
    · exact fun after stored => .inr ⟨low, _, stored⟩
  · rename_i high
    rw [Program.pure_bind]
    apply saveLogin_settles rest
    · exact single
    · exact ⟨rfl, id⟩
    · exact hashed
    · exact fun after stored => .inl ⟨Bool.eq_false_iff.mpr high, stored⟩

/-- How a login leaves the hash that it finds. -/
structure LoginSettles (services : Services) (email password : String) (before : State)
    (outcome : Except AppException LoginResult) (after : State) : Prop where
  kept : ∀ hash, StoredHash services.lower email hash before →
    services.passwordHasher.needsRehash hash = false → StoredHash services.lower email hash after
  accepted : ∀ result, outcome = .ok result → ∃ hash,
    services.passwordHasher.verify password hash = true ∧ Settles services email password hash after

theorem LoginSettles.of_rejected {services : Services} {password : String}
    {outcome : Except AppException LoginResult} (throws : ∀ value, outcome ≠ .ok value)
    (kept : HashKept services.lower email before after) :
    LoginSettles services email password before outcome after where
  kept hash stored _ := kept hash stored
  accepted result returned := absurd returned (throws result)

theorem LoginSettles.of_settles {services : Services} {password : String}
    {outcome : Except AppException LoginResult}
    (single : before.store.db.users.filter (sameEmail services.lower ·.email email) = [user])
    (hashed : user.passwordHash = some hash)
    (verified : services.passwordHasher.verify password hash = true)
    (settles : Settles services email password hash after) :
    LoginSettles services email password before outcome after where
  kept := by
    rintro found ⟨other, otherSingle, otherHashed⟩ high
    rw [single] at otherSingle
    cases otherSingle
    cases hashed.symm.trans otherHashed
    rcases settles with ⟨-, stored⟩ | ⟨low, -⟩
    · exact stored
    · rw [high] at low
      cases low
  accepted _ _ := ⟨hash, verified, settles⟩

theorem loginAsync_settles (address password : String) :
    (loginAsync services http address password).wp (.alone admits fun _ _ => True) call
      (fun outcome after => LoginSettles services (trim address) password state outcome after)
        state := by
  simp only [loginAsync, Program.wp_bind]
  apply alone_queryOrThrow
  intro input _
  cases rows : state.store.db.users.filter (sameEmail services.lower ·.email (trim address)) with
  | nil =>
      have found : Action.singleOrDefault (withEmail services (trim address) state.store.db) =
          .ok none := by
        rw [withEmail, rows]
        rfl
      rw [found, Program.andThen_ok, Program.wp_bind]
      apply alone_utcNow
      intro reading _
      rw [Program.andThen_ok]
      have unknown : ∀ user ∈ (none : Option User),
          state.store.db.users.filter (sameEmail services.lower ·.email (trim address)) = [user] :=
        fun _ impossible => nomatch impossible
      refine Program.wp_mono (rejectAsync_kept none _ unknown) ?_
      intro outcome after ⟨throws, kept⟩
      exact .of_rejected throws kept
  | cons user others =>
    cases others with
    | cons other others =>
        have found : Action.singleOrDefault (withEmail services (trim address) state.store.db) =
            .error (.invalidOperation "Sequence contains more than one element.") := by
          rw [withEmail, rows]
          rfl
        rw [found, Program.andThen_error]
        exact .of_rejected (fun _ impossible => nomatch impossible) fun _ stored => stored
    | nil =>
        have found : Action.singleOrDefault (withEmail services (trim address) state.store.db) =
            .ok (some (user,
            state.store.db.totpCredentials.find? (·.userId = user.id))) := by
          rw [withEmail, rows]
          rfl
        rw [found, Program.andThen_ok, Program.wp_bind]
        apply alone_utcNow
        intro reading _
        rw [Program.andThen_ok]
        have rejects : ∀ locked, (rejectAsync services http (some user) locked :
            Action LoginResult).wp (.alone admits fun _ _ => True) call
              (fun outcome after =>
                LoginSettles services (trim address) password state outcome after)
              ((state.observed input).observed reading) := by
          intro locked
          have known : ∀ other ∈ some user,
              state.store.db.users.filter (sameEmail services.lower ·.email (trim address)) =
                [other] := by
            rintro _ ⟨⟩
            exact rows
          refine Program.wp_mono (rejectAsync_kept (some user) locked known) ?_
          intro outcome after ⟨throws, kept⟩
          exact .of_rejected throws kept
        dsimp only
        cases hashed : user.passwordHash with
        | none => exact rejects _
        | some hash =>
            dsimp only
            split
            · exact rejects _
            · rename_i accepted
              simp only [Option.map_some, Option.bind_some, hashed, Option.getD_some,
                Bool.or_eq_true,
                Bool.not_eq_true', not_or, Bool.not_eq_false] at accepted
              refine Program.wp_mono (acceptAsync_settles _ password rows hashed) ?_
              intro outcome after settles
              exact .of_settles rows hashed accepted.1.1 settles

end LoginService

/-! ### Convergence -/

/-- The stored hash of the address verifies the password, and is not made again. -/
def Converged (lower : String → String) (argon2 : Argon2) (options : PasswordHashingOptions)
    (email password hash : String) (state : State) : Prop :=
  StoredHash lower email hash state ∧ (hasher argon2 options).verify password hash = true ∧
    needsRehash options hash = false

section Convergence

variable {argon2 : Argon2} {options : PasswordHashingOptions}

theorem converged_of_settles (documented : argon2.Documented) (positive : options.Positive)
    {services : Services} (hashes : services.passwordHasher = hasher argon2 options)
    {password : String}
    (verified : services.passwordHasher.verify password hash = true)
    (settles : LoginService.Settles services email password hash state) :
    ∃ stored, Converged services.lower argon2 options email password stored state := by
  rcases settles with ⟨high, stored⟩ | ⟨-, salt, stored⟩
  · rw [hashes] at high verified
    exact ⟨hash, stored, verified, high⟩
  · rw [hashes] at stored
    refine ⟨_, stored, ?_, documented.fresh positive password salt⟩
    have same : argon2.verify (argon2.hash password (passwordCost options) salt) password =
        some true :=
      documented.verifies password _ salt positive.memory positive.iterations positive.parallelism
    show (argon2.verify (argon2.hash password (passwordCost options) salt) password).getD
      false = true
    rw [same]
    rfl

/-- A hash in the format of the package is made again exactly where one of its numbers is below the
configured one; a hash of any text is kept only where it gives each number and in the end one that
is high enough; and a login that succeeds leaves a hash that verifies its password and is kept, also
by every later login. -/
theorem needsRehash_converges (positive : options.Positive) (documented : argon2.Documented) :
    (∀ memory iterations parallelism : Int32, 0 < memory → 0 < iterations → 0 < parallelism →
      ∀ salt digest,
        (needsRehash options (encode memory iterations parallelism salt digest) = true ↔
        memory < options.passwordMemoryKib ∨ iterations < options.passwordIterations ∨
          parallelism < options.passwordParallelism)) ∧
    (∀ hash, needsRehash options hash = false →
      ∃ segment, (split '$' hash)[3]? = some segment ∧
        ∀ parameter, ∃ value, LastGiven parameter (split ',' segment) value ∧
          (Parameter.configured options parameter).toInt ≤ value) ∧
    ∀ services : Services, services.passwordHasher = hasher argon2 options →
      ∀ http address password call before result after,
        (LoginService.loginAsync services http address password).Completes
          (fun _ _ _ _ => True) call
          before (.ok result) after →
        ∃ hash, Converged services.lower argon2 options (trim address) password hash after ∧
          ∀ http password call outcome final,
            (LoginService.loginAsync services http address password).Completes (fun _ _ _ _ => True)
              call after outcome final →
            StoredHash services.lower (trim address) hash final := by
  refine ⟨?_, fun hash kept => given_of_kept kept, ?_⟩
  · intro memory iterations parallelism memoryPositive iterationsPositive
      parallelismPositive salt digest
    exact needsRehash_encode options memoryPositive iterationsPositive
      parallelismPositive salt digest
  · intro services hashes http address password call before result after completes
    have settled := completes.post_of_wp
      (LoginService.loginAsync_settles address password)
    obtain ⟨hash, verified, settles⟩ := settled.accepted result rfl
    obtain ⟨stored, converged⟩ := converged_of_settles documented positive hashes verified settles
    refine ⟨stored, converged, ?_⟩
    intro http password call outcome final again
    have high : services.passwordHasher.needsRehash stored = false := by
      rw [hashes]
      exact converged.2.2
    exact (again.post_of_wp (LoginService.loginAsync_settles address password)).kept stored
      converged.1 high

end Convergence

/-! ### A login with an old hash -/

/-- The digest of the sample carries the secret without its dollar signs. -/
def plainDigest (secret : String) : List Char := secret.toList.filter (· ≠ '$')

theorem takeWhile_plainDigest (start : String) (secret : String) :
    ((start ++ "$" ++ String.ofList (plainDigest secret)).toList.reverse.takeWhile
      (· ≠ '$')).reverse =
      plainDigest secret := by
  have free : ∀ character ∈ (plainDigest secret).reverse, (decide (character ≠ '$')) = true := by
    simp [plainDigest]
  simp only [String.toList_append, String.toList_ofList, List.reverse_append]
  rw [List.takeWhile_append_of_pos free]
  simp

/-- A package whose digests hide nothing. -/
def plainArgon2 : Argon2 where
  hash secret cost salt :=
    encode cost.memoryCost cost.timeCost cost.parallelism (String.ofList (List.replicate salt 's'))
      (String.ofList (plainDigest secret))
  verify hash password :=
    some ((hash.toList.reverse.takeWhile (· ≠ '$')).reverse = plainDigest password)

theorem plainArgon2_documented : plainArgon2.Documented where
  encodes secret cost salt _ _ _ := by
    refine ⟨_, _, ?_, ?_, rfl⟩
    · simp
    · simp [plainDigest]
  verifies secret cost salt _ _ _ := by
    unfold plainArgon2
    dsimp only
    unfold encode
    rw [decide_eq_true (takeWhile_plainDigest _ secret)]

/-- A user whose hash was made at a lower cost. -/
def outdatedWorld : World where
  db :=
    { users := [{
        id := 2
        email := "ada@example.test"
        emailVerified := true
        passwordHash := some "$argon2id$v=19$m=8192,t=3,p=1$s$secret"
        securityStamp := 1 }] }
  supply := 1

def plainServices : Services := { Services.sample with passwordHasher := hasher plainArgon2 {} }

def outdatedLogin : Option (Except AppException LoginResult × State) :=
  Program.execute (fun _ _ _ _ => True) 0 (fun _ => ⟨10, false⟩)
    (LoginService.loginAsync plainServices {} "ada@example.test" "secret")
    (Shared.initial outdatedWorld ⟨10, false⟩)

set_option maxRecDepth 10000 in
theorem outdatedLogin_any : outdatedLogin.any (fun ended => ended.1.toOption.isSome) = true := by
  decide +kernel

/-- The user logs in, and the hash is made again. -/
theorem needsRehash_converges_sample :
    ∃ result after hash, outdatedLogin = some (.ok result, after) ∧
      Converged plainServices.lower plainArgon2 {} "ada@example.test" "secret" hash after := by
  obtain ⟨⟨outcome, after⟩, executed, succeeds⟩ := (Option.any_eq_true _ _).mp outdatedLogin_any
  cases outcome with
  | error => cases succeeds
  | ok result =>
      have positive : PasswordHashingOptions.Positive {} := ⟨by decide, by decide, by decide⟩
      obtain ⟨-, -, logins⟩ := needsRehash_converges positive plainArgon2_documented
      obtain ⟨hash, converged, -⟩ :=
        logins plainServices rfl {} "ada@example.test" "secret" 0 _ result
        after (Program.completes_of_execute executed)
      have trimmed : trim "ada@example.test" = "ada@example.test" := by decide +kernel
      rw [trimmed] at converged
      exact ⟨result, after, hash, executed, converged⟩

end AuthStartpack
