import AuthStartpack.Registration.Accounting
import AuthStartpack.Registration.DrawnKeys
import AuthStartpack.SocialAuth.Callbacks

/-!
Owns concurrent registrations of one address. Whoever saves the address first
has created the account; everybody else, also who found the address free and
lost the race, sends its owner a token to reset the password, and the answer is
the same for all.
-/

namespace AuthStartpack

namespace Registration

/-! ### What a call reports -/

variable {services : Services} {http : HttpContext} {lower : String → String} {email : String}
  {call : ℕ}

/-- One token is issued to the user, and mailed to the user's address. -/
def Mails (services : Services) (user : User) (type : VerificationTokenType) (template : String)
    (events : List Event) : Prop :=
  ∃ token message plaintext, events = [.verificationTokenIssued token, .emailQueued message] ∧
    token.userId = some user.id ∧ token.type = type ∧
    token.tokenHash = services.tokenGenerator.hash plaintext ∧
    message.recipient = user.email ∧ message.template = template ∧
    message.values = [("Token", plaintext)]

/-- The call hashes one password, adds the account, and mails a token to verify its address. -/
def Creates (services : Services) (account : User) (events : List Event) : Prop :=
  ∃ user now mails, events = .passwordHashed :: .userRegistered user :: mails ∧
    account = { user with createdAt := now, updatedAt := now } ∧
    Mails services account .emailVerification "EmailVerification" mails

/-- The call hashes one password, and mails a token to reset the password of the account. -/
def Notifies (services : Services) (account : User) (events : List Event) : Prop :=
  ∃ mails, events = .passwordHashed :: mails ∧
    Mails services account .passwordReset "RegistrationAttempt" mails

/-! ### One call among others -/

/-- Registrations of one address, each accounted for by what it reports. -/
def law (lower : String → String) (email : String) : Law Input World Event :=
  .concurrent (fun _ _ _ _ => True) (Accounted lower email)

/-- Between the writes of a call. -/
def Quietly (lower : String → String) (email : String) (call : ℕ) (before after : State) : Prop :=
  Accounted lower email before after ∧ after.eventsOf call = before.eventsOf call

theorem calm (lower : String → String) (email : String) (call : ℕ) :
    Calm (law lower email) call (Quietly lower email call) := by
  refine Calm.reporting call Accounts.refl Accounts.trans ?_
  intro state input world _ step
  obtain ⟨auditLogEntries, equal⟩ := step.db
  refine Accounts.advance_iff.mpr (Leads.nil_iff.mpr ?_)
  rw [equal]
  rfl

/-- A step that reports `events`, from a state that the call has reached quietly. -/
theorem Quietly.reported {start current : State} {input : Input} {events : List Event}
    (quiet : Quietly lower email call start current) (world : World)
    (leads : Leads (Allowed lower email) current.store.db.unlogged events world.db.unlogged) :
    Accounted lower email current (current.advance call input (world, events)) ∧
      Accounted lower email start (current.advance call input (world, events)) ∧
      (current.advance call input (world, events)).eventsOf call = start.eventsOf call ++
        events := by
  have step : Accounted lower email current (current.advance call input (world, events)) :=
    Accounts.advance_iff.mpr leads
  refine ⟨step, Accounts.trans _ _ _ quiet.1 step, ?_⟩
  rw [Shared.eventsOf_advance, quiet.2]

/-- A saved token is a step of its own. -/
theorem leads_issued {now : Instant} {db after : Db} {token : VerificationToken}
    (saved : db.insertVerificationToken now token = .ok after) :
    Leads (Allowed lower email) db.unlogged [.verificationTokenIssued token] after.unlogged := by
  simp only [Db.insertVerificationToken, bind_eq_ok, pure_eq_ok, insertRow_eq_ok] at saved
  obtain ⟨_, ⟨-, rfl⟩, rfl⟩ := saved
  exact .single (.issued now)

theorem insertVerificationToken_refused {now : Instant} {db : Db} {token : VerificationToken}
    {exception : AppException} (owner : ∀ id ∈ token.userId, ∃ user ∈ db.users, user.id = id)
    (refused : db.insertVerificationToken now token = .error exception) :
    (keys services).Collision exception := by
  simp only [Db.insertVerificationToken, bind_eq_error, pure_ne_error, and_false, exists_false,
    or_false] at refused
  obtain ⟨name, member, rfl⟩ := insertRow_refused refused
  simp only [List.mem_cons, Prod.mk.injEq, List.not_mem_nil, or_false] at member
  rcases member with ⟨rfl, -⟩ | ⟨rfl, -⟩ | ⟨-, missing⟩
  · simp [keys]
  · simp [keys]
  · have present : token.userId.all db.hasUser = true := by
      rw [Option.all_eq_true]
      exact fun id found => Db.hasUser_of_exists (owner id found)
    rw [present] at missing
    cases missing

theorem wp_store {state : State} {id : Guid} {type : VerificationTokenType} {lifetime : Duration}
    (owner : ∃ user ∈ state.store.db.users, user.id = id)
    {post : Except AppException IssuedVerificationToken → State → Prop}
    (issued : ∀ token value later, token.userId = some id → token.type = type →
      token.tokenHash = services.tokenGenerator.hash value →
        Accounted services.lower email state later →
      later.eventsOf call = state.eventsOf call ++ [.verificationTokenIssued token] →
      post (.ok ⟨value, token.expiresAt⟩) later)
    (refused : ∀ exception later, (keys services).Collision exception →
      post (.error exception) later) :
    (VerificationTokens.store services (some id) type lifetime
      fun token => [.verificationTokenIssued token]).wp
        (law services.lower email) call post state := by
  have calm := calm services.lower email call
  simp only [VerificationTokens.store, Program.wp_bind]
  refine Action.calm_draw calm ?_
  intro _ drawn before drawing _
  simp only [Program.andThen_ok, Program.wp_bind]
  refine Action.calm_utcNow calm ?_
  intro read reading
  simp only [Program.andThen_ok, Program.wp_bind]
  refine Action.calm_draw calm ?_
  intro _ numbered between numbering _
  have reached := calm.trans _ _ _ (calm.trans _ _ _ before drawing)
    (calm.trans _ _ _ reading (calm.trans _ _ _ between numbering))
  simp only [Program.andThen_ok, Program.wp_bind]
  refine Action.wp_saveChanges calm ?_ ?_
  · intro current input db rests saved _
    have quiet : Quietly services.lower email call state current := calm.trans _ _ _ reached rests
    obtain ⟨step, since, events⟩ := quiet.reported { current.store with db } (leads_issued saved)
    exact ⟨step, issued _ _ _ rfl rfl rfl since events⟩
  · intro current later exception now rests _ failed
    refine refused exception later (insertVerificationToken_refused ?_ failed)
    rintro _ ⟨⟩
    obtain ⟨user, member, same⟩ := owner
    exact ⟨user, (calm.trans _ _ _ reached rests).1.users member, same⟩

/-- A mail is handed to the queue. -/
theorem wp_queueEmailReporting {state : State} {message : EmailMessage}
    {post : Except AppException Unit → State → Prop}
    (queued : ∀ later, Accounted lower email state later →
      later.eventsOf call = state.eventsOf call ++ [.emailQueued message] → post (.ok ()) later) :
    (Action.queueEmailReporting message).wp (law lower email) call post state := by
  intro current relied input _
  have quiet : Quietly lower email call state current := (calm lower email call).rely _ _ relied
  obtain ⟨step, since, events⟩ := quiet.reported _ (.single .mailed)
  exact ⟨step, queued _ since events⟩

/-- What a call comes to: the common answer, and mail to the one account with the address. -/
def Ends (services : Services) (email : String) (call : ℕ) :
    Except AppException RegisterResponse → State → Prop
  | .ok response, later => response = RegistrationService.acceptedResponse ∧
      ∃ account ∈ later.store.db.users, sameEmail services.lower account.email email = true ∧
        (Creates services account (later.eventsOf call) ∨
          Notifies services account (later.eventsOf call))
  | .error exception, _ => (keys services).Collision exception

theorem handleExistingAsync_ends {state : State} {existing : User}
    (member : existing ∈ state.store.db.users)
    (address : sameEmail services.lower existing.email email = true)
    (hashed : state.eventsOf call = [.passwordHashed]) :
    (RegistrationService.handleExistingAsync services existing).wp (law services.lower email) call
      (Ends services email call) state := by
  simp only [RegistrationService.handleExistingAsync, Program.wp_bind]
  refine wp_store ⟨existing, member, rfl⟩ ?_ fun _ _ collides => collides
  intro token value later owner type hash accounted issued
  simp only [Program.andThen_ok, Program.wp_bind]
  refine wp_queueEmailReporting ?_
  intro final queued reported
  rw [issued, hashed] at reported
  exact ⟨rfl, existing, queued.users (accounted.users member), address,
    .inr ⟨_, reported, token, _, value, rfl, owner, type, hash, rfl, rfl, rfl⟩⟩

section Create

variable {user : User} {token : VerificationToken} {now : Instant} {db after : Db}

/-- A saved user is a step of its own, before the one of the token. -/
theorem leads_addUser (address : sameEmail lower user.email email = true)
    (saved : RegistrationService.addUser lower user token now db = .ok after) :
    Leads (Allowed lower email) db.unlogged [.userRegistered user, .verificationTokenIssued token]
      after.unlogged := by
  obtain ⟨-, -, saved⟩ := bind_eq_ok.mp saved
  obtain ⟨_, userSaved, saved⟩ := bind_eq_ok.mp saved
  obtain ⟨_, roleSaved, saved⟩ := bind_eq_ok.mp saved
  obtain ⟨⟨unused, free, -⟩, rfl⟩ := Db.insertUser_eq_ok.mp userSaved
  obtain ⟨-, rfl⟩ := Db.insertUserRole_eq_ok.mp roleSaved
  have nobody : db.unlogged.usersOf lower email = [] := by
    refine List.filter_eq_nil_iff.mpr ?_
    intro other member taken
    have same := sameEmail_trans taken (sameEmail_comm address)
    rw [free other member] at same
    cases same
  exact .cons (.registered now address unused nobody) (leads_issued saved)

/-- The save is refused for a collision, or because the address is taken. -/
theorem addUser_refused {exception : AppException} (holds : Registrable lower email db)
    (address : sameEmail lower user.email email = true) (storableEmail : storable user.email = true)
    (fits : ∀ name ∈ user.displayName, storable name = true ∧ name.length ≤ 100)
    (owner : token.userId = some user.id)
    (refused : RegistrationService.addUser lower user token now db = .error exception) :
    (keys services).Collision exception ∨
      exception = .dbUpdate "IX_Users_Email" ∧ db.usersOf lower email ≠ [] := by
  rcases bind_eq_error.mp refused with unfit | ⟨_, -, refused⟩
  · rw [checkText_eq_ok.mpr fits] at unfit
    cases unfit
  rcases bind_eq_error.mp refused with refused | ⟨_, userSaved, refused⟩
  · rcases Db.insertUser_error refused with ⟨unstorable, -⟩ | refused
    · exact nomatch storableEmail.symm.trans unstorable
    obtain ⟨name, member, rfl⟩ := insertRow_refused refused
    simp only [List.mem_cons, Prod.mk.injEq, List.not_mem_nil, or_false] at member
    rcases member with ⟨rfl, -⟩ | ⟨rfl, taken⟩
    · exact .inl (by simp [keys])
    · have used : ∃ other ∈ db.users, sameEmail lower other.email user.email = true := by
        simpa using taken
      obtain ⟨other, otherMember, same⟩ := used
      have found : other ∈ db.usersOf lower email :=
        List.mem_filter.mpr ⟨otherMember, sameEmail_trans same address⟩
      exact .inr ⟨rfl, List.ne_nil_of_mem found⟩
  obtain ⟨⟨unused, -, -⟩, rfl⟩ := Db.insertUser_eq_ok.mp userSaved
  have present : ∃ row ∈ db.users ++ [{ user with createdAt := now, updatedAt := now }],
      row.id = user.id := ⟨_, List.mem_append_right _ List.mem_cons_self, rfl⟩
  rcases bind_eq_error.mp refused with refused | ⟨_, roleSaved, refused⟩
  · refine absurd refused (insertUserRole_accepted ?_ present holds.role)
    intro row member same
    obtain ⟨other, otherMember, assigned⟩ := holds.assigned row member
    exact unused other otherMember (assigned.trans same)
  · obtain ⟨-, rfl⟩ := Db.insertUserRole_eq_ok.mp roleSaved
    refine .inl (insertVerificationToken_refused ?_ refused)
    intro id found
    rw [owner] at found
    cases found
    exact present

end Create

/-- The one account with the address. -/
theorem single_usersOf {db : Db} (holds : Registrable lower email db)
    (taken : db.usersOf lower email ≠ []) :
    ∃ account, db.usersOf lower email = [account] := by
  have few := holds.unique
  match found : db.usersOf lower email with
  | [] => exact absurd found taken
  | [account] => exact ⟨account, rfl⟩
  | _ :: _ :: _ => simp [found] at few

/-- The query for a spelling of the address. -/
theorem usersOf_congr {spelling : String} {db : Db}
    (address : sameEmail lower spelling email = true) :
    db.users.filter (sameEmail lower ·.email spelling) = db.usersOf lower email := by
  have alike : (fun other : User => sameEmail lower other.email spelling) =
      fun other => sameEmail lower other.email email :=
    funext fun other => congrFun (sameEmail_congr address) other.email
  rw [alike]
  rfl

theorem createAsync_ends {state : State} {user : User} {token : VerificationToken}
    {plaintext : String} (holds : Registrable services.lower email state.store.db)
    (address : sameEmail services.lower user.email email = true)
    (storableEmail : storable user.email = true)
    (fits : ∀ name ∈ user.displayName, storable name = true ∧ name.length ≤ 100)
    (owner : token.userId = some user.id) (type : token.type = .emailVerification)
    (hash : token.tokenHash = services.tokenGenerator.hash plaintext)
    (hashed : state.eventsOf call = [.passwordHashed]) :
    (RegistrationService.createAsync services http user token plaintext).wp
      (law services.lower email) call
      (Ends services email call) state := by
  have calm := calm services.lower email call
  -- The save is the race: it adds the account, or finds that another call has.
  have save : (tryCatch (do
      Action.saveChanges (RegistrationService.addUser services.lower user token)
        fun _ => [.userRegistered user, .verificationTokenIssued token]
      return false) fun exception =>
        if RegistrationService.isDuplicateEmail exception then pure true
        else throw exception : Action Bool).wp (law services.lower email) call
      (fun outcome later => match outcome with
        | .ok false =>
            (∃ now, { user with createdAt := now, updatedAt := now } ∈ later.store.db.users) ∧
            later.eventsOf call =
              [.passwordHashed, .userRegistered user, .verificationTokenIssued token]
        | .ok true =>
            Registrable services.lower email later.store.db ∧
              later.store.db.usersOf services.lower email ≠ [] ∧
            later.eventsOf call = [.passwordHashed]
        | .error exception => (keys services).Collision exception) state := by
    rw [Program.wp_tryCatch, Program.wp_bind]
    refine Action.wp_saveChanges calm ?_ ?_
    · intro current input db quiet saved _
      obtain ⟨step, since, events⟩ := quiet.reported { current.store with db }
        (leads_addUser address saved)
      obtain ⟨-, verificationTokens, rfl⟩ := RegistrationService.addUser_eq_ok saved
      rw [hashed] at events
      exact ⟨step, ⟨input.now, List.mem_append_right _ List.mem_cons_self⟩, events⟩
    · intro current later exception now quiet stays refused
      have holds := quiet.1.registrable holds
      rcases addUser_refused holds address storableEmail fits owner
        refused with collides | ⟨rfl, taken⟩
      · have other : RegistrationService.isDuplicateEmail exception = false := by
          simp only [keys, List.map_cons, List.map_nil, List.mem_cons, List.not_mem_nil,
            or_false] at collides
          rcases collides with rfl | rfl | rfl <;> decide
        simp only [Program.andThen_error, other, Bool.false_eq_true, if_false, Program.wp_throw]
        exact collides
      · have duplicate :
            RegistrationService.isDuplicateEmail (.dbUpdate "IX_Users_Email") = true := by
          decide
        simp only [Program.andThen_error, duplicate, if_true, Program.wp_pure]
        exact ⟨stays.1.registrable holds, stays.1.taken taken,
          (stays.2.trans quiet.2).trans hashed⟩
  refine Program.wp_bind_of save ?_ fun _ _ collides => collides
  intro raced later saved
  cases raced with
  | true =>
      obtain ⟨holds, taken, hashed⟩ := saved
      simp only [if_true, Program.wp_bind]
      refine Action.calm_queryOrThrow calm ?_
      intro seen see
      obtain ⟨account, only⟩ := single_usersOf (see.1.registrable holds) (see.1.taken taken)
      have found : account ∈ seen.store.db.usersOf services.lower email := by simp [only]
      obtain ⟨accountStored, accountSame⟩ := List.mem_filter.mp found
      rw [usersOf_congr address, only, Action.single, Program.andThen_ok]
      exact handleExistingAsync_ends accountStored accountSame (see.2.trans hashed)
  | false =>
      obtain ⟨⟨now, stored⟩, events⟩ := saved
      simp only [Bool.false_eq_true, if_false, Program.wp_bind]
      refine AuditLogger.wp_logAsync calm ?_
      intro logged log
      simp only [Program.andThen_ok, Program.wp_bind]
      refine wp_queueEmailReporting ?_
      intro final queued reported
      rw [log.2, events] at reported
      exact ⟨rfl, _, queued.users (log.1.users stored), address,
        .inl ⟨user, now, _, reported, rfl, token, _, plaintext, rfl, owner, type, hash,
          rfl, rfl, rfl⟩⟩

theorem trim_length (text : String) : (trim text).length ≤ text.length := by
  simp only [trim, String.length_ofList, List.length_reverse]
  calc _ ≤ (text.toList.dropWhile isWhiteSpace).reverse.length :=
    List.dropWhile_sublist _ |>.length_le
    _ = (text.toList.dropWhile isWhiteSpace).length := List.length_reverse
    _ ≤ text.toList.length := (List.dropWhile_sublist _).length_le
    _ = text.length := String.length_toList

theorem storable_trim {text : String} (stored : storable text = true) :
    storable (trim text) = true := by
  simp only [storable, List.all_eq_true] at stored ⊢
  intro character member
  refine stored character ?_
  simp only [trim, String.toList_ofList, List.mem_reverse] at member
  have reversed := (List.dropWhile_sublist _).subset member
  exact (List.dropWhile_sublist _).subset (List.mem_reverse.mp reversed)

theorem registerAsync_ends {state : State} {request : RegisterRequest}
    (holds : Registrable services.lower email state.store.db)
    (address : sameEmail services.lower (trim request.email) email = true)
    (fits : RegisterRequestValidator.displayNameFits request) (storable : request.Storable)
    (silent : state.eventsOf call = []) :
    (RegistrationService.registerAsync services http request).wp (law services.lower email) call
      (Ends services email call) state := by
  have calm := calm services.lower email call
  simp only [RegistrationService.registerAsync, Program.wp_bind]
  intro current relied input _
  have started : Quietly services.lower email call state current := calm.rely _ _ relied
  obtain ⟨step, since, events⟩ := started.reported
    { current.store with supply := current.store.supply + 1 } (.single .hashed)
  rw [silent] at events
  refine ⟨step, ?_⟩
  simp only [Program.wp_done, Program.andThen_ok, Program.wp_bind]
  refine Action.calm_queryOrThrow calm ?_
  intro seen see
  have holds := see.1.registrable (since.registrable holds)
  have hashed : seen.eventsOf call = [.passwordHashed] := see.2.trans events
  rw [usersOf_congr address]
  cases found : seen.store.db.usersOf services.lower email with
  | cons existing others =>
      cases others with
      | cons other rest =>
          have few := holds.unique
          simp [found] at few
      | nil =>
          have member : existing ∈ seen.store.db.usersOf services.lower email := by simp [found]
          obtain ⟨stored, same⟩ := List.mem_filter.mp member
          exact handleExistingAsync_ends stored same hashed
  | nil =>
      simp only [Action.singleOrDefault, Program.andThen_ok, Program.wp_bind]
      refine Action.calm_draw calm ?_
      intro _ numbered toNumber numbering _
      simp only [Program.andThen_ok, Program.wp_bind]
      refine Action.calm_draw calm ?_
      intro _ stamped toStamp stamping _
      simp only [Program.andThen_ok, Program.wp_bind]
      refine Action.calm_draw calm ?_
      intro plaintext drawn toDraw drawing _
      simp only [Program.andThen_ok, Program.wp_bind]
      refine Action.calm_draw calm ?_
      intro _ identified toIdentify identifying _
      simp only [Program.andThen_ok, Program.wp_bind]
      refine Action.calm_utcNow calm ?_
      intro read reading
      have named := calm.trans _ _ _ (calm.trans _ _ _ toNumber numbering)
        (calm.trans _ _ _ toStamp stamping)
      have tokened := calm.trans _ _ _ (calm.trans _ _ _ toDraw drawing)
        (calm.trans _ _ _ toIdentify identifying)
      have reached : Quietly services.lower email call seen read :=
        calm.trans _ _ _ (calm.trans _ _ _ named tokened) reading
      refine createAsync_ends (reached.1.registrable holds) address
        (storable_trim storable.1) ?_ rfl
        rfl rfl (reached.2.trans hashed)
      intro name trimmed
      obtain ⟨text, given, rfl⟩ := Option.map_eq_some_iff.mp trimmed
      exact ⟨storable_trim (storable.2 text given), Nat.le_trans (trim_length text)
        (fits text given)⟩

theorem Creates.registers {account : User} {events : List Event}
    (creates : Creates services account events) : ∃ user, .userRegistered user ∈ events := by
  obtain ⟨user, now, mails, rfl, -⟩ := creates
  exact ⟨user, by simp⟩

theorem Notifies.not_registers {account user : User} {events : List Event}
    (notifies : Notifies services account events) : .userRegistered user ∉ events := by
  obtain ⟨mails, rfl, token, message, value, rfl, -⟩ := notifies
  simp

/-! ### All calls -/

/-- Calls of `RegisterAsync` that have not begun. -/
def inFlight (services : Services) (requests : List (HttpContext × RegisterRequest))
    (start : State) :
    Pool Input World Event AppException RegisterResponse where
  shared := start
  calls := requests.map
    fun request => RegistrationService.registerAsync services request.1 request.2

/-- What the calls that have ended have come to, with the one account of the address. -/
structure Converged (services : Services) (email : String) (start : State)
    (final : Pool Input World Event AppException RegisterResponse) (account : User) : Prop where
  only : final.shared.store.db.usersOf services.lower email = [account]
  answers : ∀ call outcome, final.outcome? call = some outcome →
    outcome = .ok RegistrationService.acceptedResponse
  found : start.store.db.usersOf services.lower email ≠ [] →
    start.store.db.usersOf services.lower email = [account] ∧
    ∀ call outcome, final.outcome? call = some outcome →
      Notifies services account (final.shared.eventsOf call)
  created : start.store.db.usersOf services.lower email = [] →
    (final.shared.store.db.userRoles.filter (·.userId = account.id)).map (·.roleId) =
        [RoleSeed.userRoleId] ∧
      ∃ creator, (∃ user, .userRegistered user ∈ final.shared.eventsOf creator) ∧
        ∀ call outcome, final.outcome? call = some outcome →
          if call = creator then Creates services account (final.shared.eventsOf call)
          else Notifies services account (final.shared.eventsOf call)

section

variable {requests : List (HttpContext × RegisterRequest)} {start : State}
variable {schedule : List (ℕ × Input)}

/-- A call that has ended has answered, and has written to the account. -/
theorem ended_answers (differ : TokensDiffer services)
    (holds : Registrable services.lower email start.store.db)
    (sound : (keys services).numbering.Sound start.store) (silent : start.journal = [])
    (alike : ∀ request ∈ requests, sameEmail services.lower (trim request.2.email) email = true)
    (fits : ∀ request ∈ requests, RegisterRequestValidator.displayNameFits request.2)
    (storable : ∀ request ∈ requests, request.2.Storable) :
    let final := (inFlight services requests start).run schedule
    Accounted services.lower email start final.shared ∧
      ∀ call outcome, final.outcome? call = some outcome →
      outcome = .ok RegistrationService.acceptedResponse ∧
        ∃ account ∈ final.shared.store.db.usersOf services.lower email,
          Creates services account (final.shared.eventsOf call) ∨
            Notifies services account (final.shared.eventsOf call) := by
  intro final
  have verified : (inFlight services requests start).Verified (fun _ _ _ _ => True)
      (Accounted services.lower email)
      (Ends services email) := by
    refine Pool.verified_of_wp Accounts.refl ?_
    intro call program found
    simp only [inFlight, List.getElem?_map, Option.map_eq_some_iff] at found
    obtain ⟨request, listed, rfl⟩ := found
    have member := List.mem_of_getElem? listed
    exact registerAsync_ends holds (alike request member) (fits request member)
      (storable request member) (by simp [inFlight, Shared.eventsOf, silent])
  have owned : (inFlight services requests start).Owned (keys services).numbering
      (fun _ outcome => ∀ exception, outcome = .error exception →
        ¬ (keys services).Collision exception)
      fun _ _ => False := by
    refine Pool.owned_of_owns sound ?_
    intro call program found
    simp only [inFlight, List.getElem?_map, Option.map_eq_some_iff] at found
    obtain ⟨request, -, rfl⟩ := found
    exact Program.owns_mono (registerAsync_storesOnly differ request.2 _ (by rintro _ ⟨⟩))
      fun outcome left spared => spared.1
  obtain ⟨accounted, stillVerified⟩ := Pool.run_wp Accounts.refl Accounts.trans verified
    (Pool.admitted_any schedule)
  obtain ⟨owner, stillOwned⟩ := Pool.run_owned owned schedule
  refine ⟨accounted, ?_⟩
  intro call outcome ended
  obtain ⟨earlier, kept, untouched, ends⟩ := stillVerified.outcome ended
  cases outcome with
  | error exception => exact absurd ends (stillOwned.outcome ended exception rfl)
  | ok response =>
      obtain ⟨rfl, account, member, same, reported⟩ := ends
      rw [← untouched.eventsOf] at reported
      exact ⟨rfl, account,
        List.mem_filter.mpr ⟨Accounted.users kept member, same⟩, reported⟩

end

/-- Two spellings of one address. -/
def twoSpellings : List (HttpContext × RegisterRequest) :=
  [({}, { email := "Ada@example.test", password := "secret" }),
    ({}, { email := " ada@EXAMPLE.test", password := "other", displayName := some "Ada" })]

/-- Each call finds the address free before the other saves. -/
def bothFindItFree : List (ℕ × Input) := callSteps 0 3 ++ callSteps 1 3 ++ callSteps 0 30 ++
    callSteps 1 30

theorem seededWorld_registrable (lower : String → String) (email : String) :
    Registrable lower email seededWorld.db where
  unique := Nat.zero_le 1
  assigned := nofun
  role := ⟨_, List.mem_cons_self, rfl⟩

theorem seededWorld_sound_keys : (keys .sample).numbering.Sound seededWorld := by
  rintro number (used | ⟨token, member, -⟩)
  · cases used
  · cases member

end Registration

end AuthStartpack
