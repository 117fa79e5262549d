import AuthStartpack.Services.Auth.RegistrationService
import AuthStartpack.Services.FreshKeys

/-!
Owns the freshness of what registrations draw: no call finds the id of its user,
or the id or the hash of its token, stored already.
-/

namespace AuthStartpack

namespace Registration

variable {services : Services} {http : HttpContext} {spent : List ℕ}

/-- The keys that a registration draws. -/
def keys (services : Services) : KeySet where
  Uses db number := number ∈ db.users.map User.id ∨ ∃ token ∈ db.verificationTokens,
    token.id = number ∨
      token.tokenHash =
        services.tokenGenerator.hash (services.tokenGenerator.newOpaqueToken number)
  Collision exception := exception ∈ ["PK_Users", "PK_VerificationTokens",
    "IX_VerificationTokens_TokenHash"].map AppException.dbUpdate
  constraint exception collides := by
    obtain ⟨name, -, rfl⟩ := List.mem_map.mp collides
    exact ⟨name, rfl⟩

theorem insertUser_saves {lower : String → String} {row : User} (drawn : row.id ∈ spent) :
    Saves (keys services) spent fun now db => db.insertUser now lower row where
  uses now db after saved number used := by
    obtain ⟨-, rfl⟩ := Db.insertUser_eq_ok.mp saved
    rcases used with user | token
    · rcases List.mem_append.mp (List.map_append ▸ user) with old | new
      · exact .inl (.inl old)
      · exact .inr (List.mem_singleton.mp new ▸ drawn)
    · exact .inl (.inr token)
  other now db exception free refused := by
    rcases Db.insertUser_error refused with ⟨-, rfl⟩ | refused
    · simp [keys]
    obtain ⟨name, member, rfl⟩ := insertRow_refused refused
    simp only [List.mem_cons, Prod.mk.injEq, List.not_mem_nil, or_false] at member
    rcases member with ⟨rfl, taken⟩ | ⟨rfl, -⟩
    · have used : row.id ∈ db.users.map User.id := by simpa using taken
      exact absurd (.inl used) (free row.id drawn)
    · simp [keys]

theorem insertUserRole_saves (row : UserRole) :
    Saves (keys services) spent fun now db => db.insertUserRole now row where
  uses now db after saved number used := by
    obtain ⟨-, rfl⟩ := Db.insertUserRole_eq_ok.mp saved
    exact .inl used
  other now db exception _ refused := by
    simp only [Db.insertUserRole, bind_eq_error, pure_ne_error, and_false, exists_false,
      or_false] at refused
    obtain ⟨name, member, rfl⟩ := insertRow_refused refused
    simp only [List.mem_cons, Prod.mk.injEq, List.not_mem_nil, or_false] at member
    rcases member with ⟨rfl, -⟩ | ⟨rfl, -⟩ | ⟨rfl, -⟩ <;> simp [keys]

theorem insertAuditLogEntry_saves (row : AuditLogEntry) :
    Saves (keys services) spent fun _ db => db.insertAuditLogEntry row where
  uses now db after saved number used := by
    obtain ⟨auditLogEntries, rfl⟩ := AuditLogger.insertAuditLogEntry_quiet saved
    exact .inl used
  other now db exception _ refused := by
    simp only [Db.insertAuditLogEntry, bind_eq_error, pure_ne_error, and_false, exists_false,
      or_false] at refused
    obtain ⟨name, member, rfl⟩ := insertRow_refused refused
    simp only [List.mem_cons, Prod.mk.injEq, List.not_mem_nil, or_false] at member
    obtain ⟨rfl, -⟩ := member
    simp [keys]

theorem insertVerificationToken_saves {row : VerificationToken} {plaintext : ℕ}
    (differ : TokensDiffer services)
    (hash : row.tokenHash =
      services.tokenGenerator.hash (services.tokenGenerator.newOpaqueToken plaintext))
    (drawn : row.id ∈ spent) (drawnPlaintext : plaintext ∈ spent) :
    Saves (keys services) spent fun now db => db.insertVerificationToken now row where
  uses now db after saved number used := by
    simp only [Db.insertVerificationToken, bind_eq_ok, pure_eq_ok, insertRow_eq_ok] at saved
    obtain ⟨_, ⟨-, rfl⟩, rfl⟩ := saved
    rcases used with user | ⟨token, member, hit⟩
    · exact .inl (.inl user)
    rcases List.mem_append.mp member with old | new
    · exact .inl (.inr ⟨token, old, hit⟩)
    rw [List.mem_singleton.mp new] at hit
    rcases hit with rfl | same
    · exact .inr drawn
    · rw [← differ plaintext number (hash.symm.trans same)]
      exact .inr drawnPlaintext
  other now db exception free refused := by
    simp only [Db.insertVerificationToken, bind_eq_error, pure_ne_error, and_false, exists_false,
      or_false] at refused
    obtain ⟨name, member, rfl⟩ := insertRow_refused refused
    simp only [List.mem_cons, Prod.mk.injEq, List.not_mem_nil, or_false] at member
    rcases member with ⟨rfl, taken⟩ | ⟨rfl, taken⟩ | ⟨rfl, -⟩
    · have used : ∃ token ∈ db.verificationTokens, token.id = row.id := by simpa using taken
      obtain ⟨token, stored, same⟩ := used
      exact absurd (.inr ⟨token, stored, .inl same⟩) (free row.id drawn)
    · have used : ∃ token ∈ db.verificationTokens, token.tokenHash = row.tokenHash := by
        simpa using taken
      obtain ⟨token, stored, same⟩ := used
      exact absurd (.inr ⟨token, stored, .inr (same.trans hash)⟩) (free plaintext drawnPlaintext)
    · simp [keys]

theorem store_storesOnly (differ : TokensDiffer services) (userId : Option Guid)
    (type : VerificationTokenType) (lifetime : Duration) (report : VerificationToken → List Event) :
    StoresOnly (keys services) spent
      (VerificationTokens.store services userId type lifetime report) := by
  refine .draw fun plaintext _ => .bind .utcNow fun _ => .draw fun id _ => ?_
  have drawn : plaintext ∈ id :: plaintext :: spent := List.mem_cons_of_mem _ List.mem_cons_self
  exact .before (.saveChanges (insertVerificationToken_saves differ rfl List.mem_cons_self drawn))
    fun _ => .pure _

theorem logAsync_storesOnly (eventType : AuditEventType) (userId : Option Guid) :
    StoresOnly (keys services) spent (AuditLogger.logAsync http eventType userId) :=
  .draw fun _ _ => .bind .utcNow fun _ =>
    .tryCatch (.saveChanges (insertAuditLogEntry_saves _)) fun _ _ => .pure ()

theorem handleExistingAsync_storesOnly (differ : TokensDiffer services) (existing : User) :
    StoresOnly (keys services) [] (RegistrationService.handleExistingAsync services existing) :=
  .bind (store_storesOnly differ _ _ _ _) fun _ => .bind (.queueEmailReporting _) fun _ => .pure _

theorem addUser_saves {user : User} {token : VerificationToken} {plaintext : ℕ}
    (differ : TokensDiffer services)
    (hash : token.tokenHash =
      services.tokenGenerator.hash (services.tokenGenerator.newOpaqueToken plaintext))
    (apart : user.id ≠ token.id ∧ user.id ≠ plaintext)
    (drawn : user.id ∈ spent ∧ token.id ∈ spent ∧ plaintext ∈ spent) :
    Saves (keys services) spent (RegistrationService.addUser services.lower user token) := by
  have inserts : Saves (keys services) ([user.id] ++ ([] ++ [token.id, plaintext])) fun now db =>
      db.insertUser now services.lower user >>= fun db =>
        db.insertUserRole now { userId := user.id, roleId := RoleSeed.userRoleId } >>= fun db =>
          db.insertVerificationToken now token := by
    refine .bind (insertUser_saves List.mem_cons_self) (.bind (insertUserRole_saves _)
      (insertVerificationToken_saves differ hash List.mem_cons_self ?_) nofun) ?_
    · exact List.mem_cons_of_mem _ List.mem_cons_self
    · intro number member same
      rw [List.mem_singleton.mp same] at member
      simp [apart.1, apart.2] at member
  refine (inserts.checkText 100 user.displayName).mono ?_
  intro number member
  simp only [List.nil_append, List.cons_append, List.mem_cons, List.not_mem_nil, or_false] at member
  rcases member with rfl | rfl | rfl
  · exact drawn.1
  · exact drawn.2.1
  · exact drawn.2.2

theorem createAsync_storesOnly {user : User} {token : VerificationToken} {text : String}
    {plaintext : ℕ} (differ : TokensDiffer services)
    (hash : token.tokenHash =
      services.tokenGenerator.hash (services.tokenGenerator.newOpaqueToken plaintext))
    (apart : user.id ≠ token.id ∧ user.id ≠ plaintext)
    (drawn : user.id ∈ spent ∧ token.id ∈ spent ∧ plaintext ∈ spent) :
    StoresOnly (keys services) spent
      (RegistrationService.createAsync services http user token text) := by
  have saves := addUser_saves differ hash apart drawn
  apply StoresOnly.before
  · apply StoresOnly.tryCatch
    · exact .before (.saveChanges saves) fun _ => .pure _
    · intro exception other
      exact .ite (.pure _) (.throw other)
  intro raced
  apply StoresOnly.ite
  · exact .bind (.single _) fun existing => handleExistingAsync_storesOnly differ existing
  · exact .bind (logAsync_storesOnly _ _) fun _ => .bind (.queueEmailReporting _) fun _ => .pure _

/-- A registration stores what it has drawn itself. -/
theorem registerAsync_storesOnly (differ : TokensDiffer services) (request : RegisterRequest) :
    StoresOnly (keys services) []
      (RegistrationService.registerAsync services http request) := by
  refine .bind (.drawReporting _) fun salt => .bind (.singleOrDefault _) fun existing => ?_
  cases existing with
  | some user => exact handleExistingAsync_storesOnly differ user
  | none =>
      refine .draw fun id _ => .draw fun stamp _ => .draw fun plaintext fresh =>
        .draw fun tokenId freshToken => .bind .utcNow fun _ => ?_
      simp only [List.mem_cons, not_or] at fresh freshToken
      refine createAsync_storesOnly differ rfl ⟨?_, ?_⟩ ⟨by simp, by simp, by simp⟩
      · exact Ne.symm freshToken.2.2.1
      · exact Ne.symm fresh.2.1

end Registration

end AuthStartpack
