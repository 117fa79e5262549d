import AuthStartpack.Login.Acceptance
import AuthStartpack.Program.AtMostOnce
import AuthStartpack.Registration.DrawnKeys
import AuthStartpack.Tokens.Frames

/-!
Owns the hashes of the verification tokens. Each operation stores only the hash
of a value that it has drawn itself, and stores it once. Most of them store none:
their steps leave no hash behind that was not there before.
-/

namespace AuthStartpack

/-- The drawn values whose hash is the hash of a stored verification token. -/
def tokenHashes (services : Services) : KeySet where
  Uses db number := ∃ token ∈ db.verificationTokens,
    token.tokenHash = services.tokenGenerator.hash (services.tokenGenerator.newOpaqueToken number)
  Collision _ := False
  constraint _ impossible := impossible.elim

/-- Hashes were stored before, and the supply does not go back. -/
structure HashesShrink (before after : World) : Prop where
  supply : before.supply ≤ after.supply
  hashes : ∀ row ∈ after.db.verificationTokens, ∃ old ∈ before.db.verificationTokens,
    old.tokenHash = row.tokenHash

theorem HashesShrink.of_same {before after : World} (supply : before.supply ≤ after.supply)
    (same : after.db.verificationTokens = before.db.verificationTokens) :
      HashesShrink before after where
  supply := supply
  hashes row member := ⟨row, same ▸ member, rfl⟩

/-- Every single step shrinks the hashes, in whatever world it is taken. -/
abbrev Law.shrinking : Law Input World Event :=
  .stepwise (fun _ _ _ _ => True) fun before after => HashesShrink before.store after.store

instance : Frames .shrinking (fun _ _ => True) Db.verificationTokens fun _ => False where
  calm call :=
    { refl := fun _ => trivial
      trans := fun _ _ _ _ _ => trivial
      rely := fun _ _ _ => trivial
      quiet := by
        intro state input world _ step
        obtain ⟨auditLogEntries, equal⟩ := step.db
        refine ⟨.of_same step.supply ?_, trivial⟩
        show world.db.verificationTokens = state.store.db.verificationTokens
        rw [equal] }
  frame call state input world events _ same supply _ := ⟨.of_same supply same, trivial⟩

theorem takesTokens_shrinks {services : Services} :
    TakesTokens .shrinking (fun _ _ => True) services where
  consumes type consumer hash now requires := by
    unfold VerificationTokens.consume
    refine .execute fun call start current input _ _ => ⟨⟨Nat.le_refl _, ?_⟩, trivial⟩
    intro row member
    rcases Table.mem_updateWhere_cases member with ⟨old, -⟩ | ⟨old, oldMember, -, rfl⟩
    · exact ⟨row, old, rfl⟩
    · exact ⟨old, oldMember, rfl⟩
  cleans now := by
    refine .bind (.query _) fun _ => .ite (.bind (.execute ?_) fun _ => .pure _) (.pure _)
    intro call start current input _ _
    exact ⟨⟨Nat.le_refl _, fun row member => ⟨row, (Table.mem_deleteWhere.mp member).1, rfl⟩⟩,
      trivial⟩
  deletes user := by
    refine .saveChanges ?_
    intro call start current input db _ saved _
    unfold Db.deleteUser at saved
    split at saved
    · cases saved
      exact ⟨⟨Nat.le_refl _, fun row member => ⟨row, (Table.mem_deleteWhere.mp member).1, rfl⟩⟩,
        trivial⟩
    · cases saved

/-! ### Who stores a hash -/

section Storing

variable {services : Services} {fido2 : Fido2} {spent : List ℕ}

namespace StoresOnly

/-- A program whose steps all shrink the hashes stores nothing. -/
theorem of_shrinking {α : Type} {program : Action α}
    (keeps : Keeps .shrinking (fun _ _ => True) program) :
    StoresOnly (tokenHashes services) [] program := by
  have always : program.Always HashesShrink :=
    Program.always_of_wp (keeps 0 (Shared.initial { db := {} } ⟨0, false⟩))
  intro own _
  clear keeps
  induction program with
  | done outcome => exact ⟨fun _ _ collides => collides, fun _ mine _ => mine⟩
  | step act next inductionHypothesis =>
      intro input world sound free
      obtain ⟨shrinks, rest⟩ := always input world
      have uses : ∀ number, (tokenHashes services).Uses (act input world).1.db number →
          (tokenHashes services).Uses world.db number := by
        rintro number ⟨row, member, hash⟩
        obtain ⟨old, stored, same⟩ := shrinks.hashes row member
        exact ⟨old, stored, same.trans hash⟩
      refine ⟨own,
        ⟨shrinks.supply, fun number used => .inl (uses number used), fun _ mine => .inl mine, ?_⟩,
        inductionHypothesis input world rest⟩
      intro number mine
      obtain ⟨given, unused⟩ := free number mine
      exact ⟨Nat.lt_of_lt_of_le given shrinks.supply, fun used => unused (uses number used)⟩

end StoresOnly

/-- A save that stores the hash of a spent value. -/
theorem insertVerificationToken_hashes {row : VerificationToken} {plaintext : ℕ}
    (differ : TokensDiffer services)
    (hash : row.tokenHash =
      services.tokenGenerator.hash (services.tokenGenerator.newOpaqueToken plaintext))
    (drawn : plaintext ∈ spent) :
    Saves (tokenHashes services) spent fun now db => db.insertVerificationToken now row where
  uses now db after saved number used := by
    obtain ⟨-, rfl⟩ := Db.insertVerificationToken_eq_ok.mp saved
    obtain ⟨token, member, hit⟩ := used
    rcases List.mem_append.mp member with old | new
    · exact .inl ⟨token, old, hit⟩
    · rw [List.mem_singleton.mp new] at hit
      rw [← differ plaintext number (hash.symm.trans hit)]
      exact .inr drawn
  other _ _ _ _ _ := id

namespace StoresOnly

theorem store_hashes (differ : TokensDiffer services) (userId : Option Guid)
    (type : VerificationTokenType) (lifetime : Duration) (report : VerificationToken → List Event) :
    StoresOnly (tokenHashes services) []
      (VerificationTokens.store services userId type lifetime report) := by
  refine .draw fun plaintext _ => .bind .utcNow fun _ => .draw fun id _ => ?_
  have drawn : plaintext ∈ id :: plaintext :: [] := List.mem_cons_of_mem _ List.mem_cons_self
  exact .before (.saveChanges (insertVerificationToken_hashes differ rfl drawn)) fun _ => .pure _

theorem register (differ : TokensDiffer services) (http : HttpContext) (request : RegisterRequest) :
    StoresOnly (tokenHashes services) []
      (RegistrationService.registerAsync services http request) := by
  have existing : ∀ user, StoresOnly (tokenHashes services) []
      (RegistrationService.handleExistingAsync services user) :=
    fun user => .bind (store_hashes differ _ _ _ _) fun _ => .bind (.queueEmailReporting _)
      fun _ => .pure _
  refine .bind (.drawReporting _) fun _ => .bind (.singleOrDefault _) fun found => ?_
  cases found with
  | some user => exact existing user
  | none =>
      refine .draw fun id _ => .draw fun stamp _ => .draw fun plaintext _ => .draw fun tokenId _ =>
        .bind .utcNow fun _ => ?_
      apply StoresOnly.before
      · apply StoresOnly.tryCatch
        · refine .before (.saveChanges ⟨?_, fun _ _ _ _ _ => not_false⟩) fun _ => .pure _
          intro now db after saved number used
          obtain ⟨-, -, saved⟩ := bind_eq_ok.mp saved
          obtain ⟨withUser, userSaved, saved⟩ := bind_eq_ok.mp saved
          obtain ⟨withRole, roleSaved, saved⟩ := bind_eq_ok.mp saved
          obtain ⟨-, rfl⟩ := Db.insertUser_eq_ok.mp userSaved
          obtain ⟨-, rfl⟩ := Db.insertUserRole_eq_ok.mp roleSaved
          have drawn : plaintext ∈ [tokenId, plaintext, stamp, id] := by simp
          exact (insertVerificationToken_hashes differ rfl drawn).uses _ _ _ saved number used
        · intro exception _
          exact .ite (.pure _) (.throw not_false)
      intro raced
      apply StoresOnly.ite
      · exact .bind (.single _) fun user => existing user
      · exact .bind (.of_shrinking (.logAsync http _ _)) fun _ =>
          .bind (.queueEmailReporting _) fun _ => .pure _

theorem login (differ : TokensDiffer services) (http : HttpContext) (email password : String) :
    StoresOnly (tokenHashes services) []
      (LoginService.loginAsync services http email password) := by
  have saves : ∀ original current (events : Db → List Event), LoginUpdate original current →
      (∀ db, ∀ event ∈ events db, event.OfLogin) → Keeps .shrinking (fun _ _ => True)
        (Action.saveChanges (fun now db => db.updateUser now original current) events) :=
    fun _ _ _ _ _ => updateUser_tokens fun _ _ _ => not_false
  have rejects : ∀ user locked, StoresOnly (tokenHashes services) []
      (LoginService.rejectAsync services http user locked : Action LoginResult) :=
    fun _ _ => .of_shrinking (LoginService.rejectAsync_frame saves _ _)
  refine .bind (.singleOrDefault _) fun found => .bind .utcNow fun now => ?_
  split
  · exact rejects _ _
  split
  · exact rejects _ _
  refine .ite (rejects _ _) ?_
  rw [LoginService.acceptAsync_eq]
  apply StoresOnly.bind
  · refine .of_shrinking ?_
    exact .ite (.bind .draw fun _ => .pure _) (.pure _)
  intro current
  apply StoresOnly.bind
  · refine .of_shrinking ?_
    exact updateUser_tokens fun _ _ _ => not_false
  intro _
  apply StoresOnly.ite
  · exact .bind (store_hashes differ _ _ _ _) fun _ =>
      .bind (.of_shrinking (.logAsync http _ _)) fun _ => .pure _
  · refine .bind (.of_shrinking ?_) fun _ => .bind (.of_shrinking (.logAsync http _ _))
      fun _ => .pure _
    exact AuthenticationSessionFactory.createAsync_frame (fun _ _ => rfl)
      (fun _ _ => rfl) services http
      _ _

end StoresOnly

/-- Every operation stores only the hashes of what it draws, each of them once. -/
theorem ServiceOperation.storesOnly (differ : TokensDiffer services) (op : ServiceOperation) :
    StoresOnly (tokenHashes services) [] (op.program services fido2) := by
  by_cases issuing : op.issues = true
  · have stores := @StoresOnly.store_hashes services differ
    cases op with
    | register http request => exact .bind (.register differ http request) fun _ => .pure _
    | login http email password => exact .bind (.login differ http email password) fun _ => .pure _
    | sendVerification userId =>
        apply StoresOnly.bind (.singleOrDefault _)
        intro _
        apply StoresOnly.bind (.orThrow not_false _)
        intro value
        apply StoresOnly.ite (.throw not_false)
        exact .bind (stores _ _ _ _) fun _ => .queueEmail _
    | requestReset http email =>
        refine .bind (.singleOrDefault _) fun found => ?_
        cases found with
        | none => exact .pure ()
        | some user =>
            exact .bind (stores _ _ _ _)
              fun _ => .bind (.of_shrinking (.logAsync http _ _)) fun _ =>
              .queueEmail _
    | socialAuthorize host provider =>
        apply StoresOnly.bind
        · apply StoresOnly.bind (.of_shrinking (.done _))
          intro _
          apply StoresOnly.bind (stores _ _ _ _)
          intro _
          exact .bind (.of_shrinking (.done _)) fun _ => .pure _
        intro _
        exact .pure _
    | passkeyRegistrationOptions userId =>
        apply StoresOnly.bind
        · apply StoresOnly.bind (.singleOrDefault _)
          intro _
          apply StoresOnly.bind (.orThrow not_false _)
          intro value
          apply StoresOnly.bind (stores _ _ _ _)
          intro _
          exact .bind .utcNow fun _ => .pure _
        intro _
        exact .pure _
    | passkeyAuthenticationOptions =>
        apply StoresOnly.bind
        · apply StoresOnly.bind (stores _ _ _ _)
          intro _
          exact .bind .utcNow fun _ => .pure _
        intro _
        exact .pure _
    | _ => cases issuing
  · refine .of_shrinking ?_
    exact op.keeps_taking (fun _ _ => not_false) takesTokens_shrinks (Bool.eq_false_iff.mpr issuing)

end Storing

end AuthStartpack
