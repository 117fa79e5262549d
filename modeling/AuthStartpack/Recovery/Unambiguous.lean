import AuthStartpack.Tokens.Frames
import Mathlib.Data.List.DropRight

/-!
Owns how users and verification tokens are found under all operations: no two
users have one address and no two tokens one hash, nobody's address is written
again, and a registered address has no whitespace around it. So whoever names a
registered address finds its account, and whoever presents a token its row.
-/

namespace AuthStartpack

theorem trim_trim (text : String) : trim (trim text) = trim text := by
  have core : ∀ characters : List Char, characters.dropWhile isWhiteSpace = characters →
      ((characters.reverse.dropWhile isWhiteSpace).reverse).dropWhile isWhiteSpace =
        (characters.reverse.dropWhile isWhiteSpace).reverse := by
    intro characters leading
    have isPrefix := List.rdropWhile_prefix isWhiteSpace characters
    change (characters.rdropWhile isWhiteSpace).dropWhile isWhiteSpace =
      characters.rdropWhile isWhiteSpace
    cases shape : characters.rdropWhile isWhiteSpace with
    | nil => rfl
    | cons head tail =>
        obtain ⟨rest, equal⟩ := isPrefix
        rw [shape] at equal
        rw [← equal, List.cons_append] at leading
        have visible : isWhiteSpace head = false := by
          by_contra blank
          have dropped := congrArg List.length leading
          rw [List.dropWhile_cons_of_pos (by simpa using blank)] at dropped
          have shorter := (List.dropWhile_suffix (l := tail ++ rest) isWhiteSpace).length_le
          simp only [List.length_cons] at dropped
          omega
        exact List.dropWhile_cons_of_neg (by simp [visible])
  have idempotent := List.dropWhile_idempotent isWhiteSpace
  unfold trim
  simp only [String.toList_ofList, core _ (idempotent _), List.reverse_reverse, idempotent]

/-- The unique indexes of the schema by which users and verification tokens are found. -/
structure Db.Indexed (lower : String → String) (db : Db) : Prop where
  users : Table.Keyed User.id db.users
  emails : db.users.Pairwise fun left right => sameEmail lower left.email right.email = false
  tokens : Table.Keyed VerificationToken.tokenHash db.verificationTokens

/-- The indexes are unique, and the registered addresses are trimmed. -/
structure Unambiguous (lower : String → String) (state : State) : Prop where
  indexed : state.store.db.Indexed lower
  trimmed : ∀ entry ∈ state.journal, ∀ user, entry.event = .userRegistered user →
    trim user.email = user.email

/-- What every step of every operation keeps. -/
def StaysUnambiguous (lower : String → String) (before after : State) : Prop :=
  Unambiguous lower before → Unambiguous lower after

/-- Any interleaving. -/
def Law.anything (lower : String → String) : Law Input World Event :=
  .concurrent (fun _ _ _ _ => True) (StaysUnambiguous lower)

variable {lower : String → String}

namespace StaysUnambiguous

theorem refl (state : State) : StaysUnambiguous lower state state := id

theorem trans (first second third : State) (early : StaysUnambiguous lower first second)
    (late : StaysUnambiguous lower second third) : StaysUnambiguous lower first third :=
  late ∘ early

/-- A step, from what it makes of the indexes. -/
theorem of_indexed {state : State} {call : ℕ} {input : Input} {world : World} {events : List Event}
    (indexed : state.store.db.Indexed lower → world.db.Indexed lower)
    (trimmed : ∀ user, .userRegistered user ∈ events → trim user.email = user.email) :
    StaysUnambiguous lower state (state.advance call input (world, events)) := by
  intro holds
  refine ⟨indexed holds.indexed, ?_⟩
  intro entry member user registers
  rw [Shared.advance_journal] at member
  rcases List.mem_append.mp member with old | new
  · exact holds.trimmed entry old user registers
  · obtain ⟨event, reported, rfl⟩ := List.mem_map.mp new
    subst registers
    exact trimmed user reported

end StaysUnambiguous

/-- The tables with these indexes. -/
def Db.indexedTables (db : Db) : List User × List VerificationToken :=
  (db.users, db.verificationTokens)

theorem Db.Indexed.of_same {db after : Db} (same : after.indexedTables = db.indexedTables)
    (indexed : db.Indexed lower) : after.Indexed lower := by
  simp only [indexedTables, Prod.mk.injEq] at same
  obtain ⟨users, tokens⟩ := same
  constructor
  · rw [users]
    exact indexed.users
  · rw [users]
    exact indexed.emails
  · rw [tokens]
    exact indexed.tokens

instance : Frames (.anything lower) (StaysUnambiguous lower) Db.indexedTables
    (·.isRegistration) := by
  refine Frames.concurrent StaysUnambiguous.refl StaysUnambiguous.trans (fun _ _ => rfl) ?_
  intro state call input world events _ same _ silent
  refine .of_indexed (.of_same same) ?_
  intro user registers
  exact absurd rfl (silent _ registers)

/-! ### Writes -/

namespace Db.Indexed

variable {now : Instant} {db after : Db}

theorem of_added (indexed : db.Indexed lower) {user : User}
    (freshId : ∀ other ∈ db.users, other.id ≠ user.id)
    (freshEmail : ∀ other ∈ db.users, sameEmail lower other.email user.email = false)
    (users : after.users = db.users ++ [user])
    (tokens : after.verificationTokens = db.verificationTokens) : after.Indexed lower := by
  constructor
  · rw [users]
    exact indexed.users.append freshId
  · rw [users, List.pairwise_append]
    refine ⟨indexed.emails, List.pairwise_singleton _ _, ?_⟩
    intro other member added own
    rw [List.mem_singleton.mp own]
    exact freshEmail other member
  · rw [tokens]
    exact indexed.tokens

theorem insertVerificationToken (indexed : db.Indexed lower) {token : VerificationToken}
    (saved : db.insertVerificationToken now token = .ok after) : after.Indexed lower := by
  obtain ⟨⟨-, freshHash, -⟩, rfl⟩ := Db.insertVerificationToken_eq_ok.mp saved
  exact ⟨indexed.users, indexed.emails, indexed.tokens.append freshHash⟩

/-- An update that leaves the address alone. -/
theorem updateUser (indexed : db.Indexed lower) {original current : User}
    (same : current.email = original.email)
    (saved : db.updateUser now original current = .ok after) : after.Indexed lower := by
  obtain ⟨-, rfl⟩ := Db.updateUser_eq_ok.mp saved
  refine ⟨indexed.users.updateWhere fun _ => rfl, ?_, indexed.tokens⟩
  have emails : (Table.updateWhere (fun stored => stored.id = original.id && current ≠ original)
      (original.merge current now) db.users).map User.email = db.users.map User.email := by
    refine Table.map_updateWhere fun stored => ?_
    simp [User.merge, same]
  rw [← List.pairwise_map (f := User.email)
    (R := fun left right => sameEmail lower left right = false)]
  rw [emails, List.pairwise_map]
  exact indexed.emails

theorem deleteUser (indexed : db.Indexed lower) {user : User}
    (saved : db.deleteUser user = .ok after) : after.Indexed lower := by
  unfold Db.deleteUser at saved
  split at saved
  · cases saved
    exact ⟨indexed.users.deleteWhere, indexed.emails.filter _, indexed.tokens.deleteWhere⟩
  · cases saved

end Db.Indexed

namespace Keeps

theorem anything_saveChanges {changes : Instant → Db → Except AppException Db}
    {events : Db → List Event}
    (kept : ∀ now db after, changes now db = .ok after → db.Indexed lower → after.Indexed lower)
    (trimmed : ∀ db user, .userRegistered user ∈ events db → trim user.email = user.email) :
    Keeps (.anything lower) (StaysUnambiguous lower) (Action.saveChanges changes events) := by
  refine .saveChanges ?_
  intro call start current input db relied saved _
  have written : StaysUnambiguous lower current (current.advance call input
      ({ current.store with db }, events current.store.db)) :=
    .of_indexed (kept _ _ _ saved) (trimmed _)
  exact ⟨written, relied.1.trans _ _ _ written⟩

/-- A save of a new user that is not registered. -/
theorem anything_attempt {changes : Instant → Db → Except AppException Db} {events : List Event}
    (kept : ∀ now db after, changes now db = .ok after → db.Indexed lower → after.Indexed lower)
    (silent : ∀ event ∈ events, event.isRegistration = false) :
    Keeps (.anything lower) (StaysUnambiguous lower) (Action.attemptChanges changes events) := by
  intro call start
  have quiet : ∀ user, .userRegistered user ∈ events → trim user.email = user.email :=
    fun _ registers => nomatch silent _ registers
  refine Action.wp_attemptChanges (K := StaysUnambiguous lower) inferInstance ?_ ?_
  · intro current input db reached saved _
    have written : StaysUnambiguous lower current (current.advance call input
        ({ current.store with db }, events)) :=
      .of_indexed (kept _ _ _ saved) quiet
    exact ⟨written, reached.trans _ _ _ written⟩
  · intro current input exception reached _ _
    have reported : StaysUnambiguous lower current
        (current.advance call input (current.store, events)) :=
      .of_indexed id quiet
    exact ⟨reported, reached.trans _ _ _ reported⟩

/-- A save that registers nobody. -/
theorem anything_silent {changes : Instant → Db → Except AppException Db}
    {events : Db → List Event}
    (kept : ∀ now db after, changes now db = .ok after → db.Indexed lower → after.Indexed lower)
    (silent : ∀ db, ∀ event ∈ events db, event.isRegistration = false) :
    Keeps (.anything lower) (StaysUnambiguous lower) (Action.saveChanges changes events) :=
  anything_saveChanges kept fun _ _ registers => nomatch silent _ _ registers

end Keeps

/-! ### The saves of users -/

section Saves

theorem registers_unambiguous {services : Services} {request : RegisterRequest} {user : User}
    {token : VerificationToken}
    (registers : Registers request user token) :
    Keeps (.anything services.lower) (StaysUnambiguous services.lower)
      (Action.saveChanges (RegistrationService.addUser services.lower user token)
        fun _ => [.userRegistered user, .verificationTokenIssued token]) := by
  refine .anything_saveChanges ?_ ?_
  · intro now db after saved
    obtain ⟨-, -, saved⟩ := bind_eq_ok.mp saved
    obtain ⟨withUser, userSaved, saved⟩ := bind_eq_ok.mp saved
    obtain ⟨withRole, roleSaved, saved⟩ := bind_eq_ok.mp saved
    obtain ⟨⟨freshId, freshEmail, -⟩, rfl⟩ := Db.insertUser_eq_ok.mp userSaved
    obtain ⟨-, rfl⟩ := Db.insertUserRole_eq_ok.mp roleSaved
    intro indexed
    let row : User := { user with createdAt := now, updatedAt := now }
    have added : Db.Indexed services.lower { db with users := db.users ++ [row] } :=
      @Db.Indexed.of_added _ db _ indexed row freshId freshEmail rfl rfl
    refine Db.Indexed.insertVerificationToken (.of_same ?_ added) saved
    rfl
  · intro db other member
    simp only [List.mem_cons, Event.userRegistered.injEq, reduceCtorEq, List.not_mem_nil, or_false]
      at member
    rw [member, registers.email, trim_trim]

theorem social_unambiguous (services : Services) (linked : Option Guid) (name : String)
    (identity : SocialIdentity) :
    Keeps (.anything services.lower) (StaysUnambiguous services.lower)
      (SocialAuthService.createUserAsync services linked name identity) := by
  apply Keeps.bind
  · exact .ite (.pure _) (.query _)
  intro _
  apply Keeps.bind .draw
  intro drawn
  apply Keeps.bind .draw
  intro _
  apply Keeps.bind .draw
  intro _
  apply Keeps.bind
  · refine .anything_attempt ?_ ?_
    · intro now db after saved
      obtain ⟨freshId, freshEmail, -, equal⟩ := SocialAuthService.addLinkedUser_eq_ok saved
      intro indexed
      rw [equal]
      refine indexed.of_added ?_ ?_ rfl rfl
      · exact freshId
      · exact freshEmail
    · intro event member
      rw [List.mem_singleton.mp member]
      rfl
  intro _
  exact .pure _

theorem updates_unambiguous {original current : User} {events : Db → List Event}
    (same : current.email = original.email)
    (silent : ∀ db, ∀ event ∈ events db, event.isRegistration = false) :
    Keeps (.anything lower) (StaysUnambiguous lower)
      (Action.saveChanges (fun now db => db.updateUser now original current) events) :=
  .anything_silent (fun _ _ _ saved indexed => indexed.updateUser same saved) silent

theorem checked_unambiguous {original current : User} {text : Option String}
    (same : current.email = original.email) :
    Keeps (.anything lower) (StaysUnambiguous lower) (Action.saveChanges fun now db => do
      checkText 100 text
      db.updateUser now original current) := by
  refine .anything_silent ?_ fun _ _ member => by cases member
  intro now db after saved
  obtain ⟨-, -, saved⟩ := bind_eq_ok.mp saved
  exact fun indexed => indexed.updateUser same saved

theorem deletes_unambiguous (user : User) :
    Keeps (.anything lower) (StaysUnambiguous lower)
      (Action.saveChanges fun _ db => db.deleteUser user) := by
  refine .anything_silent ?_ fun _ _ member => by cases member
  exact fun _ _ _ saved indexed => indexed.deleteUser saved

theorem logins_unambiguous (original current : User) (events : Db → List Event)
    (updates : LoginUpdate original current) (ofLogin : ∀ db, ∀ event ∈ events db, event.OfLogin) :
    Keeps (.anything lower) (StaysUnambiguous lower)
      (Action.saveChanges (fun now db => db.updateUser now original current) events) := by
  refine updates_unambiguous (by rw [updates.same]) ?_
  intro db event member
  cases ofLogin db event member <;> rfl

end Saves

/-! ### Verification tokens -/

section Tokens

theorem stores_unambiguous {services : Services} {type : VerificationTokenType}
    {userId : Option Guid}
    {lifetime : Duration} {report : VerificationToken → List Event}
    (silent : ∀ token, ∀ event ∈ report token, event.isRegistration = false) :
    Keeps (.anything lower) (StaysUnambiguous lower)
      (VerificationTokens.store services userId type lifetime report) := by
  apply Keeps.bind .draw
  intro drawn
  apply Keeps.bind .utcNow
  intro now
  apply Keeps.bind .draw
  intro _
  apply Keeps.bind
  · refine .anything_silent ?_ fun _ => silent _
    exact fun _ _ _ saved indexed => indexed.insertVerificationToken saved
  intro _
  exact .pure _

/-- A statement on verification tokens that registers nobody. -/
theorem executes_unambiguous {count : Db → ℕ}
    {write : List VerificationToken → List VerificationToken} {events : Db → List Event}
    (kept : ∀ rows, Table.Keyed VerificationToken.tokenHash rows →
      Table.Keyed VerificationToken.tokenHash (write rows))
    (silent : ∀ db, ∀ event ∈ events db, event.isRegistration = false) :
    Keeps (.anything lower) (StaysUnambiguous lower) (Action.execute count
      (fun db => { db with verificationTokens := write db.verificationTokens }) events) := by
  refine .execute ?_
  intro call start current input relied _
  have written : StaysUnambiguous lower current (current.advance call input
      ({ current.store with
        db := { current.store.db with
          verificationTokens := write current.store.db.verificationTokens } },
        events current.store.db)) := by
    refine .of_indexed ?_ fun _ registers => nomatch silent _ _ registers
    exact fun indexed => ⟨indexed.users, indexed.emails, kept _ indexed.tokens⟩
  exact ⟨written, relied.1.trans _ _ _ written⟩

theorem consumes_unambiguous (type : VerificationTokenType) (consumer : TokenConsumer) :
    ConsumesKept (.anything lower) (StaysUnambiguous lower) type consumer := by
  intro hash now requires
  unfold VerificationTokens.consume
  refine @executes_unambiguous _ _ (Table.updateWhere _ _) _ ?_ ?_
  · exact fun _ keyed => keyed.updateWhere fun _ => rfl
  intro db event member
  obtain ⟨_, -, rfl⟩ := List.mem_map.mp member
  rfl

theorem cleans_unambiguous (services : Services) (now : Instant) :
    Keeps (.anything lower) (StaysUnambiguous lower)
      (ExpiredAuthArtifactCleanupService.deleteVerificationTokensAsync services now) := by
  apply Keeps.bind (.query _)
  intro found
  apply Keeps.ite
  · exact .bind
      (executes_unambiguous (fun _ keyed => keyed.deleteWhere) fun _ _ member => by cases member)
        fun _ => .pure _
  · exact .pure _

end Tokens

/-! ### All operations -/

theorem unlinks_unambiguous (account : Account) :
    Keeps (.anything lower) (StaysUnambiguous lower) (Action.saveChanges
      (fun _ db => db.deleteAccount account)
      fun db => (db.accounts.filter (·.id = account.id)).map (.accountRemoved · true)) := by
  refine .anything_silent ?_ ?_
  · intro now db after saved
    rw [Db.deleteAccount_ok saved]
    exact .of_same rfl
  · intro db event member
    obtain ⟨_, -, rfl⟩ := List.mem_map.mp member
    rfl

theorem keepsOthers_unambiguous (services : Services) :
    KeepsOthers (.anything services.lower) (StaysUnambiguous services.lower) services where
  consumes := consumes_unambiguous
  cleans := cleans_unambiguous services
  deletes := deletes_unambiguous
  updates same := updates_unambiguous same fun _ _ member => by cases member
  checks same := checked_unambiguous same
  unlinks := unlinks_unambiguous
  creates := social_unambiguous services

theorem ServiceOperation.unambiguous {services : Services} {fido2 : Fido2} (op : ServiceOperation) :
    Keeps (.anything services.lower) (StaysUnambiguous services.lower)
      (op.program services fido2) := by
  have stores : ∀ type,
      StoresKept (.anything services.lower) (StaysUnambiguous services.lower) services type :=
    fun _ _ _ => stores_unambiguous fun _ _ member => by cases member
  have quiet : ¬ false = true := Bool.false_ne_true
  by_cases other : op.issues = false
  · refine op.keeps_others ?_ ?_ (keepsOthers_unambiguous services) other
    · constructor <;> exact fun _ _ => rfl
    · exact fun event _ unregistered => by simp [unregistered]
  cases op with
  | register http request =>
      refine .bind ?_ fun _ => .pure _
      refine RegistrationService.registerAsync_frame (fun _ => ?_) (fun _ => quiet) quiet
        fun _ _ => registers_unambiguous
      exact stores_unambiguous fun _ _ member => List.mem_singleton.mp member ▸ rfl
  | login http email password =>
      refine .bind ?_ fun _ => .pure _
      exact LoginService.loginAsync_frame logins_unambiguous (fun _ _ => rfl) (fun _ _ => rfl)
        (stores _) email password
  | sendVerification userId =>
      exact EmailVerificationService.sendAsync_frame (stores _) userId
  | requestReset http email =>
      exact PasswordResetService.requestAsync_frame (stores _) http email
  | socialAuthorize host provider =>
      refine .bind ?_ fun _ => .pure _
      exact SocialAuthService.authorizeAsync_frame (stores _) host provider
  | passkeyRegistrationOptions userId =>
      refine .bind ?_ fun _ => .pure _
      exact PasskeyService.registrationOptionsAsync_frame (stores _) userId
  | passkeyAuthenticationOptions =>
      refine .bind ?_ fun _ => .pure _
      exact PasskeyService.authenticationOptionsAsync_frame (stores _)
  | _ => exact absurd rfl other

end AuthStartpack
