import AuthStartpack.Program.Ownership
import AuthStartpack.Services.Auth.AuthenticationSessionFactory
import AuthStartpack.Services.Tokens.VerificationTokens

/-!
Owns the freshness of the keys that the services draw. In any interleaving no
INSERT of a user, an account, a session or a refresh token finds its id or its
token stored already: each service inserts only values that it has drawn itself,
and each of them once.
-/

namespace AuthStartpack

/-- Drawn numbers as keys: which of them occur in a database, and which exceptions say that one was
stored already. -/
structure KeySet where
  Uses : Db → ℕ → Prop
  Collision : AppException → Prop
  constraint : ∀ exception, Collision exception → ∃ name, exception = .dbUpdate name

/-- The supply of the world, and the keys that are stored. -/
def KeySet.numbering (keys : KeySet) : Numbering World where
  next world := world.supply
  Used world number := keys.Uses world.db number

theorem KeySet.not_collision (keys : KeySet) {exception : AppException}
    (other : ∀ name, exception ≠ .dbUpdate name) : ¬ keys.Collision exception := by
  intro collides
  obtain ⟨name, equal⟩ := keys.constraint exception collides
  exact other name equal

/-- The exceptions of an INSERT whose drawn id or token is stored already. -/
def IsCollision (exception : AppException) : Prop :=
  exception ∈ ["PK_Users", "PK_Accounts", "PK_Sessions", "PK_RefreshTokens",
    "IX_RefreshTokens_TokenHash"].map AppException.dbUpdate

instance (exception : AppException) : Decidable (IsCollision exception) :=
  inferInstanceAs (Decidable (exception ∈ List.map _ _))

/-- No two drawn tokens have one hash. -/
def TokensDiffer (services : Services) : Prop :=
  ∀ left right, services.tokenGenerator.hash (services.tokenGenerator.newOpaqueToken left) =
    services.tokenGenerator.hash (services.tokenGenerator.newOpaqueToken right) → left = right

/-- The number occurs as a key of one of the four tables. -/
def Db.UsesKey (services : Services) (db : Db) (number : ℕ) : Prop :=
  number ∈ db.users.map User.id ∨ number ∈ db.accounts.map Account.id ∨
    number ∈ db.sessions.map Session.id ∨ ∃ token ∈ db.refreshTokens, token.id = number ∨
      token.tokenHash =
        services.tokenGenerator.hash (services.tokenGenerator.newOpaqueToken number)

/-- The supply of the world, and the keys that are stored. -/
def drawnKeys (services : Services) : Numbering World where
  next world := world.supply
  Used world number := world.db.UsesKey services number

/-- The keys of the four tables. -/
def storedKeys (services : Services) : KeySet where
  Uses db number := db.UsesKey services number
  Collision := IsCollision
  constraint exception collides := by
    obtain ⟨name, -, rfl⟩ := List.mem_map.mp collides
    exact ⟨name, rfl⟩

/-- The first constraint that is violated is reported. -/
theorem insertRow_refused {ρ : Type} {constraints : List (String × Bool)} {rows : List ρ} {row : ρ}
    {exception : AppException} (refused : insertRow constraints rows row = .error exception) :
    ∃ name, (name, false) ∈ constraints ∧ exception = .dbUpdate name := by
  unfold insertRow at refused
  split at refused
  case h_1 name held found =>
    have violated := List.find?_some found
    have member := List.mem_of_find?_eq_some found
    simp only [Bool.not_eq_true'] at violated
    subst violated
    cases refused
    exact ⟨name, member, rfl⟩
  case h_2 => cases refused

/-- The changes of a save store only numbers of `spent`, and do not collide if these are free. -/
structure Saves (keys : KeySet) (spent : List ℕ)
    (changes : Instant → Db → Except AppException Db) : Prop where
  uses : ∀ now db after, changes now db = .ok after → ∀ number, keys.Uses after number →
    keys.Uses db number ∨ number ∈ spent
  other : ∀ now db exception, (∀ number ∈ spent, ¬ keys.Uses db number) →
    changes now db = .error exception → ¬ keys.Collision exception

/-! ### The statements -/

/-- The keys of the four tables. -/
def Db.keys (db : Db) : List Guid × List Guid × List Guid × List (Guid × String) :=
  (db.users.map User.id, db.accounts.map Account.id, db.sessions.map Session.id,
    db.refreshTokens.map fun token => (token.id, token.tokenHash))

theorem Db.UsesKey.of_keys {services : Services} {db after : Db} {number : ℕ}
    (same : after.keys = db.keys) (used : after.UsesKey services number) :
    db.UsesKey services number := by
  simp only [keys, Prod.mk.injEq] at same
  obtain ⟨users, accounts, sessions, tokens⟩ := same
  rcases used with user | account | session | ⟨token, member, hit⟩
  · exact .inl (users ▸ user)
  · exact .inr (.inl (accounts ▸ account))
  · exact .inr (.inr (.inl (sessions ▸ session)))
  · have listed : (token.id, token.tokenHash) ∈ db.refreshTokens.map fun token =>
        (token.id, token.tokenHash) := tokens ▸ List.mem_map_of_mem member
    obtain ⟨old, oldMember, equal⟩ := List.mem_map.mp listed
    obtain ⟨id, hash⟩ := Prod.mk.inj equal
    exact .inr (.inr (.inr ⟨old, oldMember, by rw [id, hash]; exact hit⟩))

namespace Saves

variable {services : Services} {keys : KeySet} {spent : List ℕ}
variable {changes : Instant → Db → Except AppException Db}

/-- Changes that leave the keys alone. -/
theorem of_keys (keys : ∀ now db after, changes now db = .ok after → after.keys = db.keys)
    (other : ∀ now db exception, changes now db = .error exception → ¬ IsCollision exception) :
    Saves (storedKeys services) spent changes where
  uses now db after saved _ used := .inl (used.of_keys (keys now db after saved))
  other now db exception _ := other now db exception

theorem mono {more : List ℕ} (saves : Saves keys spent changes)
    (included : ∀ number ∈ spent, number ∈ more) : Saves keys more changes where
  uses now db after saved number used :=
    (saves.uses now db after saved number used).imp_right (included number)
  other now db exception free :=
    saves.other now db exception fun number member => free number (included number member)

theorem bind {more : List ℕ} {next : Instant → Db → Except AppException Db}
    (first : Saves keys spent changes) (second : Saves keys more next)
    (apart : ∀ number ∈ more, number ∉ spent) :
    Saves keys (spent ++ more) fun now db => changes now db >>= next now where
  uses now db after saved number used := by
    obtain ⟨middle, changed, continued⟩ := bind_eq_ok.mp saved
    rcases second.uses now middle after continued number used with early | late
    · exact (first.uses now db middle changed number early).imp_right (List.mem_append_left more)
    · exact .inr (List.mem_append_right spent late)
  other now db exception free refused := by
    rcases bind_eq_error.mp refused with refused | ⟨middle, changed, refused⟩
    · exact first.other now db exception
        (fun number member => free number (List.mem_append_left more member)) refused
    · refine second.other now middle exception ?_ refused
      intro number member used
      rcases first.uses now db middle changed number used with old | mine
      · exact free number (List.mem_append_right spent member) old
      · exact apart number member mine

theorem checkText (saves : Saves keys spent changes) (maxLength : ℕ) (value : Option String) :
    Saves keys spent fun now db => do
      AuthStartpack.checkText maxLength value
      changes now db where
  uses now db after saved := by
    obtain ⟨-, -, saved⟩ := bind_eq_ok.mp saved
    exact saves.uses now db after saved
  other now db exception free refused := by
    rcases bind_eq_error.mp refused with unfit | ⟨-, -, refused⟩
    · exact keys.not_collision (checkText_error unfit)
    · exact saves.other now db exception free refused

theorem insertUser {lower : String → String} {row : User} (drawn : row.id ∈ spent) :
    Saves (storedKeys services) spent fun now db => db.insertUser now lower row where
  uses now db after saved number used := by
    obtain ⟨-, rfl⟩ := Db.insertUser_eq_ok.mp saved
    rcases used with user | rest
    · rcases List.mem_append.mp (List.map_append ▸ user) with old | new
      · exact .inl (.inl old)
      · exact .inr (List.mem_singleton.mp new ▸ drawn)
    · exact .inl (.inr rest)
  other now db exception free refused := by
    rcases Db.insertUser_error refused with ⟨-, rfl⟩ | refused
    · simp [storedKeys, IsCollision]
    obtain ⟨name, member, rfl⟩ := insertRow_refused refused
    simp only [List.mem_cons, Prod.mk.injEq, List.not_mem_nil, or_false] at member
    rcases member with ⟨rfl, taken⟩ | ⟨rfl, -⟩
    · have used : row.id ∈ db.users.map User.id := by simpa using taken
      exact absurd (.inl used) (free row.id drawn)
    · simp [storedKeys, IsCollision]

theorem insertAccount {row : Account} (drawn : row.id ∈ spent) :
    Saves (storedKeys services) spent fun now db => db.insertAccount now row where
  uses now db after saved number used := by
    obtain ⟨-, rfl⟩ := Db.insertAccount_eq_ok.mp saved
    rcases used with user | account | rest
    · exact .inl (.inl user)
    · rcases List.mem_append.mp (List.map_append ▸ account) with old | new
      · exact .inl (.inr (.inl old))
      · exact .inr (List.mem_singleton.mp new ▸ drawn)
    · exact .inl (.inr (.inr rest))
  other now db exception free refused := by
    simp only [Db.insertAccount, bind_eq_error, pure_ne_error, and_false, exists_false,
      or_false] at refused
    obtain ⟨name, member, rfl⟩ := insertRow_refused refused
    simp only [List.mem_cons, Prod.mk.injEq, List.not_mem_nil, or_false] at member
    rcases member with ⟨rfl, taken⟩ | ⟨rfl, -⟩ | ⟨rfl, -⟩
    · have used : row.id ∈ db.accounts.map Account.id := by simpa using taken
      exact absurd (.inr (.inl used)) (free row.id drawn)
    · simp [storedKeys, IsCollision]
    · simp [storedKeys, IsCollision]

theorem insertSession {row : Session} (drawn : row.id ∈ spent) :
    Saves (storedKeys services) spent fun now db => db.insertSession now row where
  uses now db after saved number used := by
    obtain ⟨-, rfl⟩ := Db.insertSession_eq_ok.mp saved
    rcases used with user | account | session | token
    · exact .inl (.inl user)
    · exact .inl (.inr (.inl account))
    · rcases List.mem_append.mp (List.map_append ▸ session) with old | new
      · exact .inl (.inr (.inr (.inl old)))
      · exact .inr (List.mem_singleton.mp new ▸ drawn)
    · exact .inl (.inr (.inr (.inr token)))
  other now db exception free refused := by
    simp only [Db.insertSession, bind_eq_error, pure_ne_error, and_false, exists_false,
      or_false] at refused
    obtain ⟨name, member, rfl⟩ := insertRow_refused refused
    simp only [List.mem_cons, Prod.mk.injEq, List.not_mem_nil, or_false] at member
    rcases member with ⟨rfl, taken⟩ | ⟨rfl, -⟩
    · have used : row.id ∈ db.sessions.map Session.id := by simpa using taken
      exact absurd (.inr (.inr (.inl used))) (free row.id drawn)
    · simp [storedKeys, IsCollision]

/-- The token is the one of the drawn `number`. -/
theorem insertRefreshToken {row : RefreshToken} {plaintext : ℕ} (differ : TokensDiffer services)
    (hash : row.tokenHash =
      services.tokenGenerator.hash (services.tokenGenerator.newOpaqueToken plaintext))
    (drawn : row.id ∈ spent) (drawnPlaintext : plaintext ∈ spent) :
    Saves (storedKeys services) spent fun now db => db.insertRefreshToken now row where
  uses now db after saved number used := by
    obtain ⟨-, rfl⟩ := Db.insertRefreshToken_eq_ok.mp saved
    rcases used with user | account | session | ⟨token, member, hit⟩
    · exact .inl (.inl user)
    · exact .inl (.inr (.inl account))
    · exact .inl (.inr (.inr (.inl session)))
    rcases List.mem_append.mp member with old | new
    · exact .inl (.inr (.inr (.inr ⟨token, old, hit⟩)))
    rw [List.mem_singleton.mp new] at hit
    rcases hit with rfl | same
    · exact .inr drawn
    · rw [← differ plaintext number (hash.symm.trans same)]
      exact .inr drawnPlaintext
  other now db exception free refused := by
    simp only [Db.insertRefreshToken, bind_eq_error, pure_ne_error, and_false, exists_false,
      or_false] at refused
    obtain ⟨name, member, rfl⟩ := insertRow_refused refused
    simp only [List.mem_cons, Prod.mk.injEq, List.not_mem_nil, or_false] at member
    rcases member with ⟨rfl, taken⟩ | ⟨rfl, taken⟩ | ⟨rfl, -⟩
    · have used : ∃ token ∈ db.refreshTokens, token.id = row.id := by simpa using taken
      obtain ⟨token, stored, same⟩ := used
      exact absurd (.inr (.inr (.inr ⟨token, stored, .inl same⟩))) (free row.id drawn)
    · have used : ∃ token ∈ db.refreshTokens, token.tokenHash = row.tokenHash := by
        simpa using taken
      obtain ⟨token, stored, same⟩ := used
      exact absurd (.inr (.inr (.inr ⟨token, stored, .inr (same.trans hash)⟩)))
        (free plaintext drawnPlaintext)
    · simp [storedKeys, IsCollision]

theorem insertUserRole (row : UserRole) :
    Saves (storedKeys services) spent fun now db => db.insertUserRole now row := by
  refine .of_keys ?_ ?_
  · intro now db after saved
    obtain ⟨-, rfl⟩ := Db.insertUserRole_eq_ok.mp saved
    rfl
  · intro now db exception refused
    simp only [Db.insertUserRole, bind_eq_error, pure_ne_error, and_false, exists_false,
      or_false] at refused
    obtain ⟨name, member, rfl⟩ := insertRow_refused refused
    simp only [List.mem_cons, Prod.mk.injEq, List.not_mem_nil, or_false] at member
    rcases member with ⟨rfl, -⟩ | ⟨rfl, -⟩ | ⟨rfl, -⟩ <;> simp [IsCollision]

theorem insertVerificationToken (row : VerificationToken) :
    Saves (storedKeys services) spent fun now db => db.insertVerificationToken now row := by
  refine .of_keys ?_ ?_
  · intro now db after saved
    obtain ⟨verificationTokens, rfl⟩ := Db.insertVerificationToken_ok saved
    rfl
  · intro now db exception refused
    simp only [Db.insertVerificationToken, bind_eq_error, pure_ne_error, and_false, exists_false,
      or_false] at refused
    obtain ⟨name, member, rfl⟩ := insertRow_refused refused
    simp only [List.mem_cons, Prod.mk.injEq, List.not_mem_nil, or_false] at member
    rcases member with ⟨rfl, -⟩ | ⟨rfl, -⟩ | ⟨rfl, -⟩ <;> simp [IsCollision]

theorem insertAuditLogEntry (row : AuditLogEntry) :
    Saves (storedKeys services) spent fun _ db => db.insertAuditLogEntry row := by
  refine .of_keys ?_ ?_
  · intro now db after saved
    obtain ⟨auditLogEntries, rfl⟩ := AuditLogger.insertAuditLogEntry_quiet saved
    rfl
  · intro now db exception refused
    simp only [Db.insertAuditLogEntry, bind_eq_error, pure_ne_error, and_false, exists_false,
      or_false] at refused
    obtain ⟨name, member, rfl⟩ := insertRow_refused refused
    simp only [List.mem_cons, Prod.mk.injEq, List.not_mem_nil, or_false] at member
    obtain ⟨rfl, -⟩ := member
    simp [IsCollision]

theorem updateUser (original current : User) :
    Saves (storedKeys services) spent fun now db => db.updateUser now original current := by
  refine .of_keys ?_ ?_
  · intro now db after saved
    obtain ⟨-, rfl⟩ := Db.updateUser_eq_ok.mp saved
    simp only [Db.keys, Prod.mk.injEq, and_true]
    exact Table.map_updateWhere fun _ => rfl
  · intro now db exception refused
    unfold Db.updateUser at refused
    split at refused
    · cases refused
    simp only [bind_eq_error, pure_ne_error, and_false, exists_false, or_false] at refused
    unfold updateRow at refused
    split at refused <;> cases refused
    simp [IsCollision]

theorem deleteAccount (row : Account) : Saves (storedKeys services) spent
    fun _ db => db.deleteAccount row where
  uses now db after saved number used := by
    unfold Db.deleteAccount at saved
    split at saved
    · cases saved
      rcases used with user | account | rest
      · exact .inl (.inl user)
      · obtain ⟨kept, member, rfl⟩ := List.mem_map.mp account
        exact .inl (.inr (.inl (List.mem_map_of_mem (Table.mem_deleteWhere.mp member).1)))
      · exact .inl (.inr (.inr rest))
    · cases saved
  other now db exception _ refused := by
    unfold Db.deleteAccount at refused
    split at refused <;> cases refused
    simp [storedKeys, IsCollision]

end Saves

/-! ### Programs that store only what they draw -/

/-- No collision is thrown, and of the numbers of `own` all are left but those of `spent`. -/
def Spared {α : Type} (keys : KeySet) (spent : List ℕ) (own : ℕ → Prop)
    (outcome : Except AppException α)
    (left : ℕ → Prop) : Prop :=
  (∀ exception, outcome = .error exception → ¬ keys.Collision exception) ∧
    ∀ number, own number → number ∉ spent → left number

/-- The program stores what it draws itself, and of the numbers of its caller those of `spent`. -/
def StoresOnly {α : Type} (keys : KeySet) (spent : List ℕ) (program : Action α) : Prop :=
  ∀ own, (∀ number ∈ spent, own number) →
    program.Owns keys.numbering (Spared keys spent own) own

namespace StoresOnly

variable {α β : Type} {keys : KeySet} {spent : List ℕ} {program : Action α}

theorem outcome {outcome : Except AppException α}
    (other : ∀ exception, outcome = .error exception → ¬ keys.Collision exception) :
    StoresOnly keys spent (Program.done outcome : Action α) :=
  fun _ _ => ⟨other, fun _ owned _ => owned⟩

theorem pure (value : α) : StoresOnly keys spent (Pure.pure value : Action α) :=
  .outcome fun _ impossible => nomatch impossible

theorem throw {exception : AppException} (other : ¬ keys.Collision exception) :
    StoresOnly keys spent (MonadExcept.throw exception : Action α) := by
  refine .outcome ?_
  rintro _ ⟨⟩
  exact other

theorem ite {condition : Prop} [Decidable condition] {otherwise : Action α}
    (yes : StoresOnly keys spent program) (no : StoresOnly keys spent otherwise) :
    StoresOnly keys spent (if condition then program else otherwise) := by
  split
  · exact yes
  · exact no

theorem orThrow {exception : AppException} (other : ¬ keys.Collision exception) (value : Option α) :
    StoresOnly keys spent (Action.orThrow exception value) := by
  cases value with
  | none => exact throw other
  | some found => exact pure found

/-- A program that spends nothing, before one that does. -/
theorem bind {rest : α → Action β} (first : StoresOnly keys [] program)
    (next : ∀ value, StoresOnly keys spent (rest value)) :
    StoresOnly keys spent (program >>= rest) := by
  intro own owned
  refine Program.owns_bind (first own nofun) ?_ ?_
  · rintro value left ⟨-, kept⟩
    refine Program.owns_mono (next value left fun number member =>
      kept number (owned number member) List.not_mem_nil) ?_
    rintro outcome last ⟨other, later⟩
    exact ⟨other, fun number mine unspent =>
      later number (kept number mine List.not_mem_nil) unspent⟩
  · rintro exception left ⟨other, kept⟩
    refine ⟨?_, fun number mine _ => kept number mine List.not_mem_nil⟩
    rintro _ ⟨⟩
    exact other exception rfl

/-- A program that spends, before one that does not. -/
theorem before {rest : α → Action β} (first : StoresOnly keys spent program)
    (next : ∀ value, StoresOnly keys [] (rest value)) :
    StoresOnly keys spent (program >>= rest) := by
  intro own owned
  refine Program.owns_bind (first own owned) ?_ ?_
  · rintro value left ⟨-, kept⟩
    refine Program.owns_mono (next value left nofun) ?_
    rintro outcome last ⟨other, later⟩
    exact ⟨other, fun number mine unspent =>
      later number (kept number mine unspent) List.not_mem_nil⟩
  · rintro exception left ⟨other, kept⟩
    refine ⟨?_, kept⟩
    rintro _ ⟨⟩
    exact other exception rfl

theorem tryCatch {handler : AppException → Action α} (body : StoresOnly keys spent program)
    (handles : ∀ exception, ¬ keys.Collision exception → StoresOnly keys [] (handler exception)) :
    StoresOnly keys spent (MonadExcept.tryCatch program handler) := by
  intro own owned
  refine Program.owns_tryCatch (body own owned) ?_ ?_
  · rintro value left ⟨-, kept⟩
    exact ⟨(fun _ impossible => nomatch impossible), kept⟩
  · rintro exception left ⟨other, kept⟩
    refine Program.owns_mono (handles exception (other exception rfl) left nofun) ?_
    rintro outcome last ⟨otherLast, later⟩
    exact ⟨otherLast, fun number mine unspent =>
      later number (kept number mine unspent) List.not_mem_nil⟩

/-- What is drawn may be spent as well: nobody has stored it yet. -/
theorem draw {rest : ℕ → Action β}
    (next : ∀ drawn, drawn ∉ spent → StoresOnly keys (drawn :: spent) (rest drawn)) :
    StoresOnly keys spent (Action.draw >>= rest) := by
  intro own owned
  have drawing : Action.draw.Owns (keys.numbering) (fun outcome left => ∃ drawn,
      outcome = .ok drawn ∧ ¬ own drawn ∧ left = fun number => own number ∨ number = drawn)
        own := by
    refine Program.owns_atomically ?_
    intro input world sound free
    have fresh : ¬ own world.supply := fun mine => Nat.lt_irrefl _ (free _ mine).1
    refine ⟨_, ⟨Nat.le_succ _, fun _ used => .inl used, ?_, ?_⟩, world.supply, rfl, fresh, rfl⟩
    · rintro number (mine | rfl)
      · exact .inl mine
      · exact .inr (Nat.le_refl _)
    · rintro number (mine | rfl)
      · exact ⟨Nat.lt_succ_of_lt (free number mine).1, (free number mine).2⟩
      · exact ⟨Nat.lt_succ_self _, fun used => Nat.lt_irrefl _ (sound _ used)⟩
  refine Program.owns_bind drawing ?_ ?_
  · rintro value left ⟨drawn, equal, fresh, rfl⟩
    cases equal
    refine Program.owns_mono (next value (fresh <| owned value ·) _ ?_) ?_
    · intro number member
      rcases List.mem_cons.mp member with rfl | old
      · exact .inr rfl
      · exact .inl (owned number old)
    · rintro outcome last ⟨other, kept⟩
      refine ⟨other, fun number mine unspent => kept number (.inl mine) ?_⟩
      intro member
      rcases List.mem_cons.mp member with rfl | old
      · exact fresh mine
      · exact unspent old
  · rintro exception _ ⟨drawn, impossible, -⟩
    cases impossible

/-- What is drawn need not be kept. -/
theorem drawReporting (event : Event) : StoresOnly keys spent (Action.drawReporting event) := by
  intro own owned
  refine Program.owns_atomically ?_
  intro input world _ free
  refine ⟨own, ⟨Nat.le_succ _, fun _ used => .inl used, fun _ mine => .inl mine, ?_⟩, ?_⟩
  · intro number mine
    exact ⟨Nat.lt_succ_of_lt (free number mine).1, (free number mine).2⟩
  · exact ⟨(fun _ impossible => nomatch impossible), fun _ mine _ => mine⟩

/-- A step that draws nothing. -/
theorem atomically {act : Input → World → Except AppException α × World × List Event}
    (supply : ∀ input world, (act input world).2.1.supply = world.supply)
    (uses : ∀ input world number, keys.Uses (act input world).2.1.db number →
      keys.Uses world.db number ∨ number ∈ spent)
    (other : ∀ input world exception, (∀ number ∈ spent, ¬ keys.Uses world.db number) →
      (act input world).1 = .error exception → ¬ keys.Collision exception) :
    StoresOnly keys spent (Program.atomically act) := by
  intro own owned
  refine Program.owns_atomically ?_
  intro input world _ free
  refine ⟨fun number => own number ∧
    number ∉ spent, ⟨Nat.le_of_eq (supply input world).symm, ?_, ?_, ?_⟩,
    fun exception => other input world exception ?_, fun _ mine unspent => ⟨mine, unspent⟩⟩
  case refine_4 =>
    intro number member
    exact (free number (owned number member)).2
  · intro number used
    exact (uses input world number used).imp_right (owned number)
  · rintro number ⟨mine, -⟩
    exact .inl mine
  · rintro number ⟨mine, unspent⟩
    obtain ⟨given, unused⟩ := free number mine
    refine ⟨Nat.lt_of_lt_of_le given (Nat.le_of_eq (supply input world).symm), ?_⟩
    intro used
    exact (uses input world number used).elim unused unspent

theorem utcNow : StoresOnly keys spent Action.utcNow :=
  .atomically (fun _ _ => rfl) (fun _ _ _ => .inl) fun _ _ _ _ impossible => nomatch impossible

theorem query (read : Db → α) : StoresOnly keys spent (Action.query read) :=
  .atomically (fun _ _ => rfl) (fun _ _ _ => .inl) fun _ _ _ _ impossible => nomatch impossible

theorem queryOrThrow {read : Db → Except AppException α}
    (other : ∀ db exception, read db = .error exception → ¬ keys.Collision exception) :
    StoresOnly keys spent (Action.queryOrThrow read) :=
  .atomically (fun _ _ => rfl) (fun _ _ _ => .inl) fun _ world exception _ =>
    other world.db exception

theorem queueEmail (message : EmailMessage) : StoresOnly keys spent (Action.queueEmail message) :=
  .atomically (fun _ _ => rfl) (fun _ _ _ => .inl) fun _ _ _ _ impossible => nomatch impossible

theorem queueEmailReporting (message : EmailMessage) :
    StoresOnly keys spent (Action.queueEmailReporting message) :=
  .atomically (fun _ _ => rfl) (fun _ _ _ => .inl) fun _ _ _ _ impossible => nomatch impossible

theorem execute {count : Db → ℕ} {write : Db → Db} {events : Db → List Event}
    (uses : ∀ db number, keys.Uses (write db) number → keys.Uses db number) :
    StoresOnly keys spent (Action.execute count write events) :=
  .atomically (fun _ _ => rfl) (fun _ world number used => .inl (uses world.db number used))
    fun _ _ _ _ impossible => nomatch impossible

theorem saveChanges {changes : Instant → Db → Except AppException Db} {events : Db → List Event}
    (saves : Saves keys spent changes) :
    StoresOnly keys spent (Action.saveChanges changes events) := by
  refine .atomically ?_ ?_ ?_
  · intro input world
    split <;> rfl
  · intro input world number
    split
    case h_1 db saved => exact saves.uses _ _ _ saved number
    case h_2 => exact .inl
  · intro input world exception free
    split
    case h_1 => exact fun impossible => nomatch impossible
    case h_2 thrown refused =>
      rintro ⟨⟩
      exact saves.other _ _ _ free refused

theorem attemptChanges {changes : Instant → Db → Except AppException Db} {events : List Event}
    (saves : Saves keys spent changes) :
    StoresOnly keys spent (Action.attemptChanges changes events) := by
  refine .atomically ?_ ?_ ?_
  · intro input world
    split <;> rfl
  · intro input world number
    split
    case h_1 db saved => exact saves.uses _ _ _ saved number
    case h_2 => exact .inl
  · intro input world exception free
    split
    case h_1 => exact fun impossible => nomatch impossible
    case h_2 thrown refused =>
      rintro ⟨⟩
      exact saves.other _ _ _ free refused

end StoresOnly

/-! ### The services -/

section Services

variable {services : Services} {keys : KeySet} {spent : List ℕ} {http : HttpContext}

theorem not_collision_of_single {ρ : Type} {rows : List ρ} {exception : AppException}
    (refused : Action.single rows = .error exception) : ¬ keys.Collision exception := by
  unfold Action.single at refused
  split at refused <;> cases refused <;> exact keys.not_collision nofun

theorem not_collision_of_singleOrDefault {ρ : Type} {rows : List ρ} {exception : AppException}
    (refused : Action.singleOrDefault rows = .error exception) : ¬ keys.Collision exception := by
  unfold Action.singleOrDefault at refused
  split at refused <;> cases refused
  exact keys.not_collision nofun

namespace StoresOnly

theorem single {α : Type} (read : Db → List α) :
    StoresOnly keys spent (Action.queryOrThrow fun db => Action.single (read db)) :=
  .queryOrThrow fun _ _ refused => not_collision_of_single refused

theorem singleOrDefault {α : Type} (read : Db → List α) :
    StoresOnly keys spent (Action.queryOrThrow fun db => Action.singleOrDefault (read db)) :=
  .queryOrThrow fun _ _ refused => not_collision_of_singleOrDefault refused

theorem logAsync (eventType : AuditEventType) (userId : Option Guid) :
    StoresOnly (storedKeys services) spent (AuditLogger.logAsync http eventType userId) :=
  .draw fun _ _ => .bind .utcNow fun _ =>
    .tryCatch (.saveChanges (.insertAuditLogEntry _)) fun _ _ => .pure ()

theorem notifyAsync (tracked : Option User) (userId : Guid) (eventName : String) :
    StoresOnly (storedKeys services) spent
      (SecurityNotificationService.notifyAsync tracked userId eventName) := by
  have find : StoresOnly (storedKeys services) []
      (SecurityNotificationService.find tracked userId) := by
    cases tracked with
    | some user => exact .pure _
    | none => exact .query fun db => db.users.find? (·.id = userId)
  apply StoresOnly.bind find
  intro found
  apply StoresOnly.bind (.orThrow (by simp [storedKeys, IsCollision]) found)
  intro user
  exact .bind .utcNow fun _ => .queueEmail _

theorem store (userId : Option Guid) (type : VerificationTokenType) (lifetime : Duration)
    (report : VerificationToken → List Event) :
    StoresOnly (storedKeys services) spent
      (VerificationTokens.store services userId type lifetime report) :=
  .draw fun _ _ => .bind .utcNow fun _ => .draw fun _ _ =>
    .bind (.saveChanges (.insertVerificationToken _)) fun _ => .pure _

theorem consume (hash : String) (type : VerificationTokenType) (now : Instant)
    (requires : VerificationToken → Bool) (consumer : TokenConsumer) :
    StoresOnly (storedKeys services) spent
      (VerificationTokens.consume hash type now requires consumer) := by
  unfold VerificationTokens.consume
  exact .execute fun _ _ used => used.of_keys rfl

theorem accessToken (request : AccessTokenRequest) :
    StoresOnly (storedKeys services) spent (AccessTokenIssuer.issueAsync services request) :=
  .bind .utcNow fun _ => .draw fun _ _ => .pure _

theorem createSession (request : NewSessionRequest) :
    StoresOnly (storedKeys services) spent (SessionService.createAsync services request) := by
  apply StoresOnly.bind .utcNow
  intro now
  apply StoresOnly.bind (.single _)
  intro _
  exact .draw fun _ _ => .before (.saveChanges (.insertSession List.mem_cons_self)) fun _ => .pure _

theorem issueRefreshToken (differ : TokensDiffer services) (sessionId : Guid) :
    StoresOnly (storedKeys services) [] (RefreshTokenService.issueAsync services sessionId) := by
  refine .bind (.single _) fun session => ?_
  simp only [RefreshTokenService.createToken, Program.bind_assoc]
  refine .draw fun plaintext _ => .draw fun id _ => ?_
  have saved : StoresOnly (storedKeys services) [id, plaintext] (Action.saveChanges fun now db =>
      db.insertRefreshToken now
        { id, sessionId, expiresAt := session.absoluteExpiresAt
          tokenHash := services.tokenGenerator.hash
            (services.tokenGenerator.newOpaqueToken plaintext) }) := by
    refine .saveChanges (.insertRefreshToken differ rfl List.mem_cons_self ?_)
    exact List.mem_cons_of_mem _ List.mem_cons_self
  exact saved.before fun _ => .pure _

theorem createAuthenticationSession (differ : TokensDiffer services) (userId : Guid)
    (methods : List AuthenticationMethod) :
    StoresOnly (storedKeys services) []
      (AuthenticationSessionFactory.createAsync services http userId methods) := by
  apply StoresOnly.bind (.single _)
  intro _
  apply StoresOnly.bind (.query _)
  intro found
  apply StoresOnly.bind .utcNow
  intro now
  apply StoresOnly.bind (.createSession _)
  intro _
  apply StoresOnly.bind (.issueRefreshToken differ _)
  intro _
  exact .bind (.accessToken _) fun _ => .pure _

end StoresOnly

end Services

end AuthStartpack
