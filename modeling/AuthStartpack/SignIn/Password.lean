import AuthStartpack.SignIn.Provenance
import AuthStartpack.SignIn.Sessions

/-!
Owns what a login with a password goes on from: at moments of its call, the
password was that of the one user with the address, the account was neither
locked nor unverified, and the authenticator was read with the user. A confirmed
one makes the login issue a ticket for this user, any other a session.
-/

namespace AuthStartpack

/-- The password was accepted for this user, who was read with this authenticator. -/
structure PasswordAccepted (services : Services) (seen : ℕ → State → Input → Prop) (call : ℕ)
    (email password : String) (user : User) (credential : Option TotpCredential) : Prop where
  read : ∃ moment input, seen call moment input ∧
    LoginService.withEmail services (trim email) moment.store.db = [(user, credential)]
  verified : ∃ hash, user.passwordHash = some hash ∧
    services.passwordHasher.verify password hash = true
  address : user.emailVerified = true
  unlocked : ∃ moment input, seen call moment input ∧
    LockoutPolicy.isLockedOut services.lockoutOptions input.now user = false

namespace LoginService

section Rules

variable {services : Services} {http : HttpContext} {law : Law Input World Event} {τ : Type}
variable {view : Db → τ} {counts : Event → Prop} [frames : Frames law (fun _ _ => True) view counts]
variable {call : ℕ} {email password : String}

include frames

/-- A login that is only to keep to its law has to do so once the password was accepted. -/
theorem wp_loginAsync (seen : ℕ → State → Input → Prop)
    (sees : ∀ state input, law.admits state call input [] → seen call state input)
    (saves : ∀ original current (events : Db → List Event), LoginUpdate original current →
      (∀ db, ∀ event ∈ events db, event.OfLogin) → Keeps law (fun _ _ => True)
        (Action.saveChanges (fun now db => db.updateUser now original current) events))
    (proceeds : ∀ user credential,
      PasswordAccepted services seen call email password user credential →
      ∀ state, (proceedAsync services http user credential).wp law call (fun _ _ => True) state)
    (state : State) :
    (loginAsync services http email password).wp law call (fun _ _ => True) state := by
  have calm : Calm law call fun _ _ => True := inferInstance
  have rejects :
      ∀ user locked current, (rejectAsync services http user locked : Action LoginResult).wp
      law call (fun _ _ => True) current :=
    fun user locked current => rejectAsync_frame saves user locked call current
  simp only [loginAsync, Program.wp_bind]
  refine Action.seen_queryOrThrow calm ?_
  intro read readInput _ readAdmitted _
  cases found : Action.singleOrDefault (withEmail services (trim email) read.store.db) with
  | error exception => trivial
  | ok row =>
  simp only [Program.andThen_ok, Program.wp_bind]
  refine Action.seen_utcNow calm ?_
  intro dated clock _ datedAdmitted _
  simp only [Program.andThen_ok]
  cases row with
  | none => exact rejects _ _ _
  | some row =>
  obtain ⟨user, credential⟩ := row
  dsimp only
  cases hashed : user.passwordHash with
  | none => exact rejects _ _ _
  | some hash =>
  dsimp only
  split
  case isTrue => exact rejects _ _ _
  case isFalse accepted =>
    simp only [Option.map_some, Option.bind_some, hashed, Option.getD_some, Option.any_some,
      Bool.or_eq_true, Bool.not_eq_true', not_or, Bool.not_eq_false, Bool.not_eq_true] at accepted
    obtain ⟨⟨verified, unlocked⟩, address⟩ := accepted
    have goes := proceeds user credential
      ⟨⟨read, readInput, sees _ _ readAdmitted, Action.singleOrDefault_eq_some found⟩,
        ⟨hash, hashed, verified⟩, address, ⟨dated, clock, sees _ _ datedAdmitted, unlocked⟩⟩
    rw [acceptAsync_eq]
    have saved : ∀ current later, LoginUpdate user current → (Action.saveChanges
        (fun now db => db.updateUser now user current)
        (fun _ => if current.passwordHash = user.passwordHash then []
          else [.passwordRehashed user]) >>=
          fun _ => proceedAsync services http user credential).wp law call
            (fun _ _ => True) later := by
      intro current later updates
      refine Program.wp_bind_of (saves _ _ _ updates ?_ call later) (fun _ _ _ => goes _)
        fun _ _ _ => trivial
      intro db event member
      split at member
      · cases member
      · rw [List.mem_singleton.mp member]
        exact .rehashed user
    rw [Program.wp_bind]
    unfold clearedAsync
    split
    · rw [Program.wp_bind]
      refine Action.calm_draw calm ?_
      intro _ _ _ _ _
      exact saved _ _ ⟨rfl, fun _ => rfl⟩
    · exact saved _ _ ⟨rfl, id⟩

end Rules

end LoginService

end AuthStartpack
