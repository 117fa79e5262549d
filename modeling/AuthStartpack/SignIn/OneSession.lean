import AuthStartpack.Login.Acceptance
import AuthStartpack.Program.AtMostOnce
import AuthStartpack.SignIn.Sessions
import AuthStartpack.Tokens.Frames

/-!
Owns that a sign-in ends in one session at most: of the steps of each of the four
sign-ins, only the save of its session adds one.
-/

namespace AuthStartpack

variable {services : Services} {fido2 : Fido2}

/-- Every single step adds no session, in whatever world it is taken. -/
abbrev Law.addingNone : Law Input World Event :=
  .stepwise (fun _ _ _ _ => True) fun before after =>
    NoneNew before.store.db.sessions after.store.db.sessions

/-- No session is added. -/
abbrev AddsNone (before after : World) : Prop := NoneNew before.db.sessions after.db.sessions

instance : Frames .addingNone (fun _ _ => True) Db.sessions fun _ => False where
  calm call :=
    { refl := fun _ => trivial
      trans := fun _ _ _ _ _ => trivial
      rely := fun _ _ _ => trivial
      quiet := by
        intro state input world _ step
        obtain ⟨auditLogEntries, equal⟩ := step.db
        refine ⟨?_, trivial⟩
        show NoneNew state.store.db.sessions world.db.sessions
        rw [equal]
        exact .refl _ }
  frame call state input world events _ same _ _ := by
    refine ⟨?_, trivial⟩
    show NoneNew state.store.db.sessions world.db.sessions
    rw [same]
    exact .refl _

theorem always_addsNone {α : Type} {program : Action α}
    (keeps : Keeps .addingNone (fun _ _ => True) program) : program.Always AddsNone :=
  Program.always_of_wp (keeps 0 (Shared.initial { db := {} } ⟨0, false⟩))

namespace AuthenticationSessionFactory

theorem createAsync_atMostOnce (services : Services) (http : HttpContext) (userId : Guid)
    (methods : List AuthenticationMethod) :
    (createAsync services http userId methods).AtMostOnce AddsNone := by
  apply Program.AtMostOnce.after (always_addsNone (.queryOrThrow _))
  intro user
  apply Program.AtMostOnce.after (always_addsNone (.query _))
  intro roles
  apply Program.AtMostOnce.after (always_addsNone .utcNow)
  intro now
  apply Program.AtMostOnce.before
  · apply Program.AtMostOnce.after (always_addsNone .utcNow)
    intro now
    apply Program.AtMostOnce.after (always_addsNone (.queryOrThrow _))
    intro found
    apply Program.AtMostOnce.after (always_addsNone .draw)
    intro drawn
    exact .before (.atomically _) fun _ => always_addsNone (.pure _)
  intro _
  refine always_addsNone (.bind ?_ fun _ => .bind (.accessToken services _) fun _ => .pure _)
  exact RefreshTokenService.issueAsync_frame (fun _ _ => rfl) services _

end AuthenticationSessionFactory

namespace LoginService

theorem proceedAsync_atMostOnce (http : HttpContext) (user : User)
    (credential : Option TotpCredential) :
    (proceedAsync services http user credential).AtMostOnce AddsNone := by
  unfold proceedAsync
  split
  · refine Program.Always.atMostOnce
      (always_addsNone (.bind ?_ fun _ => .bind (.logAsync http _ _) fun _ => .pure _))
    exact MfaTicketService.issueAsync_frame (fun _ _ => rfl) services _
  · exact .before (AuthenticationSessionFactory.createAsync_atMostOnce services http _ _) fun _ =>
      always_addsNone (.bind (.logAsync http _ _) fun _ => .pure _)

theorem loginAsync_atMostOnce (http : HttpContext) (email password : String) :
    (loginAsync services http email password).AtMostOnce AddsNone := by
  have saves : ∀ (original current : User) (events : Db → List Event), Keeps .addingNone
      (fun _ _ => True)
        (Action.saveChanges (fun now db => db.updateUser now original current) events) := by
    intro original current events
    refine .frame_reporting ?_ fun _ _ _ => not_false
    intro now db after saved
    obtain ⟨users, rfl⟩ := Db.updateUser_ok saved
    rfl
  have rejects : ∀ user locked,
      (rejectAsync services http user locked : Action LoginResult).AtMostOnce AddsNone := by
    intro user locked
    exact (always_addsNone
      (rejectAsync_frame (fun _ _ _ _ _ => saves _ _ _) user locked)).atMostOnce
  refine .after (always_addsNone (.queryOrThrow _))
    fun found => .after (always_addsNone .utcNow) fun _ => ?_
  split
  · exact rejects _ _
  split
  · exact rejects _ _
  dsimp only
  split
  · exact rejects _ _
  rw [acceptAsync_eq]
  refine .after (always_addsNone ?_) fun current => .after (always_addsNone (saves _ _ _)) fun _ =>
    proceedAsync_atMostOnce http _ _
  exact .ite (.bind .draw fun _ => .pure _) (.pure _)

theorem completeMfaAsync_atMostOnce (http : HttpContext) (mfaTicket code : String) :
    (completeMfaAsync services http mfaTicket code).AtMostOnce AddsNone := by
  have fails : ∀ userId, (mfaFailureAsync http userId : Action LoginResponse).AtMostOnce AddsNone :=
    fun _ => (always_addsNone (.bind (.logAsync http _ _) fun _ => .throw _)).atMostOnce
  refine .after (always_addsNone ?_) fun owner => ?_
  · exact MfaTicketService.consumeAsync_frame (fun _ _ => rfl)
      (fun _ => not_false) services mfaTicket
  cases owner with
  | none => exact fails none
  | some userId =>
      refine .after (always_addsNone ?_) fun method => ?_
      · exact TotpService.verifyAsync_frame (fun _ _ => rfl) (fun _ _ => rfl) (fun _ _ => not_false)
          (fun _ => not_false) services userId code
      cases method with
      | none => exact fails _
      | some method =>
          apply Program.AtMostOnce.before
          · exact AuthenticationSessionFactory.createAsync_atMostOnce services http _ _
          intro _
          exact always_addsNone (.bind (.logAsync http _ _) fun _ => .pure _)

end LoginService

/-! ### The other sign-ins -/

theorem PasskeyService.completeAuthenticationAsync_atMostOnce (http : HttpContext)
    (request : AuthenticatorResponse) :
    (completeAuthenticationAsync services fido2 http request).AtMostOnce AddsNone := by
  refine .tryCatch ?_ fun _ => always_addsNone (.throw _)
  apply Program.AtMostOnce.after (always_addsNone (.orThrow _ _))
  intro raw
  apply Program.AtMostOnce.after (always_addsNone (.orThrow _ _))
  intro challenge
  apply Program.AtMostOnce.after
  · apply always_addsNone
    exact consumeChallengeAsync_frame (consumesKept_frame (fun _ _ => rfl) (fun _ => not_false) _)
      services _ _
  intro _
  apply Program.AtMostOnce.after (always_addsNone (.orThrow _ _))
  intro credentialId
  apply Program.AtMostOnce.after (always_addsNone (.queryOrThrow _))
  intro found
  apply Program.AtMostOnce.after (always_addsNone (.orThrow _ _))
  intro credential
  apply Program.AtMostOnce.ite
  · exact (always_addsNone (.throw _)).atMostOnce
  · apply Program.AtMostOnce.after (always_addsNone (.orThrow _ _))
    intro signCount
    apply Program.AtMostOnce.ite
    · exact (always_addsNone (.throw _)).atMostOnce
    · apply Program.AtMostOnce.after (always_addsNone .utcNow)
      intro lastUsedAt
      apply Program.AtMostOnce.after
      · apply always_addsNone
        refine .frame_reporting ?_ fun _ _ _ => not_false
        intro now db after saved
        obtain ⟨-, rfl⟩ := Db.updatePasskeyCredential_eq_ok.mp saved
        rfl
      intro _
      apply Program.AtMostOnce.before
        (AuthenticationSessionFactory.createAsync_atMostOnce services http _ _)
      intro response
      exact always_addsNone (.bind (.logAsync http _ _) fun _ => .pure _)

theorem SocialAuthService.callbackAsync_atMostOnce (host : SocialHost) (http : HttpContext)
    (answers : ProviderAnswers) (provider : String) (query : SocialCallbackQuery) :
    (callbackAsync services host http answers provider query).AtMostOnce AddsNone := by
  have resolves : ∀ name identity, Keeps .addingNone (fun _ _ => True)
      (resolveUserAsync services http name identity) := by
    intro name identity
    refine .bind (.queryOrThrow _) fun linked => ?_
    cases linked with
    | some user => exact .pure user
    | none =>
        refine .bind ?_ fun _ => .bind (.logAsync http _ _) fun _ => .pure _
        exact createUserAsync_frame (fun _ _ _ _ => rfl) (fun _ _ _ => not_false) services _ name
          identity
  apply Program.AtMostOnce.after (always_addsNone (.done _))
  intro name
  apply Program.AtMostOnce.ite
  · exact (always_addsNone (.throw _)).atMostOnce
  · apply Program.AtMostOnce.after
    · apply always_addsNone
      refine .bind .utcNow fun _ => .bind ?_ fun _ => .ite (.throw _) (.pure _)
      exact consumesKept_frame (fun _ _ => rfl) (fun _ => not_false) _ _ _ _
    intro _
    apply Program.AtMostOnce.after (always_addsNone (.done _))
    intro identity
    apply Program.AtMostOnce.after (always_addsNone (resolves _ _))
    intro _
    apply Program.AtMostOnce.before
      (AuthenticationSessionFactory.createAsync_atMostOnce services http _ _)
    intro _
    exact always_addsNone (.bind (.logAsync http _ _) fun _ => .pure _)

end AuthStartpack
