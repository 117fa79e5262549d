import AuthStartpack.Program.Pool
import AuthStartpack.Services.UserFrames
import AuthStartpack.SocialAuth.Takeover

/-!
Owns who consumes a verification token. Six operations present tokens, each one
of its own type, and all of them consume by the same conditional update. Until
its update has hit a row, a call changes nothing that another service reads.
-/

namespace AuthStartpack

/-! ### Presentations -/

/-- The operations that present a verification token. -/
inductive Presentation
  | completeMfa (http : HttpContext) (mfaTicket code : String)
  | confirmEmail (http : HttpContext) (token : String)
  | confirmReset (http : HttpContext) (token newPassword : String)
  | passkeyRegistration (userId : Guid) (request : AuthenticatorResponse) (label : Option String)
  | passkeyAuthentication (http : HttpContext) (request : AuthenticatorResponse)
  | socialCallback (host : SocialHost) (http : HttpContext) (answers : ProviderAnswers)
      (provider : String) (query : SocialCallbackQuery)

namespace TokenConsumer

/-- The type of the tokens that an operation consumes. -/
def type : TokenConsumer → VerificationTokenType
  | mfaTicket => .mfaChallenge
  | emailVerification => .emailVerification
  | passwordReset => .passwordReset
  | passkeyRegistration _ => .passkeyRegistrationChallenge
  | passkeyAuthentication => .passkeyAuthenticationChallenge
  | socialState => .socialAuthorizationState

/-- Challenges of passkeys also belong to a user, or to nobody. -/
def requires : TokenConsumer → VerificationToken → Bool
  | passkeyRegistration userId => fun token => token.userId = some userId
  | passkeyAuthentication => fun token => token.userId = none
  | _ => fun _ => true

/-- The tokens that are there for this operation. -/
def Takes (consumer : TokenConsumer) (token : VerificationToken) : Prop :=
  token.type = consumer.type ∧ consumer.requires token = true

instance (consumer : TokenConsumer) (token : VerificationToken) :
    Decidable (consumer.Takes token) :=
  inferInstanceAs (Decidable (_ ∧ _))

end TokenConsumer

namespace Presentation

def operation : Presentation → ServiceOperation
  | completeMfa http mfaTicket code => .completeMfa http mfaTicket code
  | confirmEmail http token => .confirmEmail http token
  | confirmReset http token newPassword => .confirmReset http token newPassword
  | passkeyRegistration userId request label => .passkeyRegistration userId request label
  | passkeyAuthentication http request => .passkeyAuthentication http request
  | socialCallback host http answers provider query =>
      .socialCallback host http answers provider query

/-- The token in the request. -/
def token? : Presentation → Option String
  | completeMfa _ mfaTicket _ => some mfaTicket
  | confirmEmail _ token | confirmReset _ token _ => some token
  | passkeyRegistration _ request _ | passkeyAuthentication _ request => request.challenge
  | socialCallback _ _ _ _ query => query.state

def consumer : Presentation → TokenConsumer
  | completeMfa .. => .mfaTicket
  | confirmEmail .. => .emailVerification
  | confirmReset .. => .passwordReset
  | passkeyRegistration userId _ _ => .passkeyRegistration userId
  | passkeyAuthentication .. => .passkeyAuthentication
  | socialCallback .. => .socialState

/-- The hash of the token in the request. -/
def hash? (services : Services) (presentation : Presentation) : Option String :=
  presentation.token?.map services.tokenGenerator.hash

end Presentation

/-- Presentations that have not begun. -/
def presenting (services : Services) (fido2 : Fido2) (presentations : List Presentation)
    (start : State) : Pool Input World Event AppException Unit where
  shared := start
  calls := presentations.map (·.operation.program services fido2)

/-! ### Consumptions -/

/-- The token that was consumed, as it was, and for what. -/
def Event.consumption? : Event → Option (VerificationToken × TokenConsumer)
  | .verificationTokenConsumed token consumer => some (token, consumer)
  | _ => none

theorem Event.consumption?_eq_some {event : Event} {token : VerificationToken}
    {consumer : TokenConsumer} :
    event.consumption? = some (token, consumer) ↔
      event = .verificationTokenConsumed token consumer := by
  cases event <;> simp [consumption?]

/-- The call has consumed a token. -/
def Consumed (call : ℕ) (state : State) : Prop :=
  ∃ event ∈ state.eventsOf call, event.consumption?.isSome = true

instance (call : ℕ) (state : State) : Decidable (Consumed call state) :=
  inferInstanceAs (Decidable (∃ event ∈ _, _))

theorem Consumed.advance {call : ℕ} {state : State} (consumed : Consumed call state) (input : Input)
    (outcome : World × List Event) : Consumed call (state.advance call input outcome) := by
  obtain ⟨event, member, isSome⟩ := consumed
  refine ⟨event, ?_, isSome⟩
  rw [Shared.eventsOf_advance]
  exact List.mem_append_left _ member

theorem Consumed.untouched {call : ℕ} {before after : State}
    (untouched : Shared.Untouched call before after) (consumed : Consumed call before) :
    Consumed call after := by
  obtain ⟨event, member, isSome⟩ := consumed
  refine ⟨event, ?_, isSome⟩
  rw [untouched.eventsOf]
  exact member

/-- The entry of the journal. -/
theorem Consumed.entry {call : ℕ} {state : State} (consumed : Consumed call state) :
    ∃ entry ∈ state.journal, entry.call = call ∧ ∃ token consumer,
      entry.event = .verificationTokenConsumed token consumer := by
  obtain ⟨event, member, isSome⟩ := consumed
  obtain ⟨entry, inJournal, own, rfl⟩ := Shared.mem_eventsOf.mp member
  obtain ⟨⟨token, consumer⟩, consumes⟩ := Option.isSome_iff_exists.mp isSome
  exact ⟨entry, inJournal, own, token, consumer, Event.consumption?_eq_some.mp consumes⟩

/-- The number of the token that an entry of the journal consumed. -/
def consumedId? (entry : Entry Input Event) : Option Guid :=
  entry.event.consumption?.map (·.1.id)

/-- What presentations are checked against: the services, the requests, and the steps of the run. -/
structure Presented where
  services : Services
  presentations : List Presentation
  schedule : List (ℕ × Input)

/-- What is known of a consumption: its call presented the token, which was there for it, and read
the clock before the expiry; the row keeps that reading. -/
structure Settled (presented : Presented) (issued rows : List VerificationToken) (call : ℕ)
    (token : VerificationToken) (consumer : TokenConsumer) : Prop where
  presents : ∃ presentation, presented.presentations[call]? = some presentation ∧
    presentation.consumer = consumer ∧ presentation.hash? presented.services = some token.tokenHash
  takes : consumer.Takes token
  issued : token ∈ issued
  unconsumed : token.consumedAt = none
  intime : ∃ reading, (call, reading) ∈ presented.schedule ∧ reading.now < token.expiresAt ∧
    { token with consumedAt := some reading.now } ∈ rows

/-- What holds at every moment of the tokens and the journal. -/
structure Accounted (presented : Presented) (issued : List VerificationToken) (state : State) :
    Prop where
  keys : Table.Keyed VerificationToken.id state.store.db.verificationTokens
  open_ : ∀ row ∈ state.store.db.verificationTokens, row.consumedAt = none → row ∈ issued
  settled : ∀ entry ∈ state.journal, ∀ token consumer,
    entry.event = .verificationTokenConsumed token consumer →
      Settled presented issued state.store.db.verificationTokens entry.call token consumer
  once : (state.journal.filterMap consumedId?).Nodup

section Invariant

variable {presented : Presented} {issued : List VerificationToken}
variable {state : State} {call : ℕ} {input : Input}

/-- Steps that leave the tokens alone and consume nothing. -/
theorem Accounted.frame (accounted : Accounted presented issued state) {world : World}
    {events : List Event} (same : world.db.verificationTokens = state.store.db.verificationTokens)
    (silent : ∀ event ∈ events, event.consumption? = none) :
    Accounted presented issued (state.advance call input (world, events)) := by
  have nothing : ∀ entry ∈ events.map (Entry.mk call input), entry.event.consumption? = none := by
    intro entry member
    obtain ⟨event, isEvent, rfl⟩ := List.mem_map.mp member
    exact silent event isEvent
  constructor
  case keys =>
    rw [Shared.advance_store, same]
    exact accounted.keys
  case open_ =>
    rw [Shared.advance_store, same]
    exact accounted.open_
  case settled =>
    rw [Shared.advance_store, same]
    intro entry member token consumer consumes
    rcases List.mem_append.mp member with old | new
    · exact accounted.settled entry old token consumer consumes
    · have isNone := nothing entry new
      rw [Event.consumption?_eq_some.mpr consumes] at isNone
      cases isNone
  case once =>
    have none : (events.map (Entry.mk call input)).filterMap consumedId? = [] := by
      apply List.filterMap_eq_nil_iff.mpr
      intro entry member
      rw [consumedId?, nothing entry member]
      rfl
    show ((state.journal ++ events.map (Entry.mk call input)).filterMap consumedId?).Nodup
    rw [List.filterMap_append, none, List.append_nil]
    exact accounted.once

/-- A consumption stays settled under another update. -/
theorem Settled.update {rows : List VerificationToken} {token : VerificationToken}
    {consumer : TokenConsumer} (settled : Settled presented issued rows call token consumer)
    {pred : VerificationToken → Bool} (open_ : ∀ row, pred row = true → row.consumedAt = none)
    (write : VerificationToken → VerificationToken) :
    Settled presented issued (Table.updateWhere pred write rows) call token consumer := by
  obtain ⟨reading, own, early, member⟩ := settled.intime
  have miss : pred { token with consumedAt := some reading.now } = false := by
    apply Bool.eq_false_iff.mpr
    intro hit
    cases open_ _ hit
  exact { settled with intime := ⟨reading, own, early, Table.mem_updateWhere_of_not member miss⟩ }

/-- What was consumed is what was presented. -/
theorem Settled.hash {rows : List VerificationToken} {token : VerificationToken}
    {consumer : TokenConsumer} (settled : Settled presented issued rows call token consumer)
    {presentation : Presentation} (presents : presented.presentations[call]? = some presentation) :
    presentation.hash? presented.services = some token.tokenHash := by
  obtain ⟨other, presentsToo, -, hashed⟩ := settled.presents
  rw [presents] at presentsToo
  cases presentsToo
  exact hashed

/-- The update of a call that presents the token with this hash. -/
theorem Accounted.consume (accounted : Accounted presented issued state)
    {presentation : Presentation} (presents : presented.presentations[call]? = some presentation)
    {hash : String} (hashed : presentation.hash? presented.services = some hash) {reading : Input}
    (own : (call, reading) ∈ presented.schedule) :
    let pred := VerificationTokens.consumable hash presentation.consumer.type reading.now
      presentation.consumer.requires
    Accounted presented issued (state.advance call input
      ({ state.store with db := { state.store.db with
          verificationTokens := Table.updateWhere pred ({ · with consumedAt := some reading.now })
            state.store.db.verificationTokens } },
        (state.store.db.verificationTokens.filter pred).map
          (.verificationTokenConsumed · presentation.consumer))) := by
  intro pred
  have hits : ∀ row, pred row = true → row.tokenHash = hash ∧
      row.type = presentation.consumer.type ∧
      presentation.consumer.requires row = true ∧ row.consumedAt = none ∧
        reading.now < row.expiresAt :=
    fun row hit => VerificationTokens.consumable_iff.mp hit
  have open_ : ∀ row, pred row = true → row.consumedAt = none :=
    fun row hit => (hits row hit).2.2.2.1
  constructor
  case keys => exact accounted.keys.updateWhere fun _ => rfl
  case open_ =>
    intro row member isOpen
    rcases Table.mem_updateWhere_cases member with ⟨old, -⟩ | ⟨old, -, -, rfl⟩
    · exact accounted.open_ row old isOpen
    · cases isOpen
  case settled =>
    intro entry member token consumer consumes
    rcases List.mem_append.mp member with old | new
    · exact (accounted.settled entry old token consumer consumes).update open_ _
    · obtain ⟨event, isEvent, rfl⟩ := List.mem_map.mp new
      obtain ⟨row, isHit, rfl⟩ := List.mem_map.mp isEvent
      cases consumes
      obtain ⟨stored, hit⟩ := List.mem_filter.mp isHit
      obtain ⟨sameHash, sameType, required, isOpen, early⟩ := hits token hit
      exact {
        presents := ⟨presentation, presents, rfl, sameHash ▸ hashed⟩
        takes := ⟨sameType, required⟩
        issued := accounted.open_ token stored isOpen
        unconsumed := isOpen
        intime := ⟨reading, own, early, Table.mem_updateWhere_of_hit stored hit⟩ }
  case once =>
    have new : (((state.store.db.verificationTokens.filter pred).map
        (Event.verificationTokenConsumed · presentation.consumer)).map
          (Entry.mk call input)).filterMap
          consumedId? = (state.store.db.verificationTokens.filter pred).map (·.id) := by
      rw [List.filterMap_map, List.filterMap_map]
      exact congrFun List.filterMap_eq_map _
    show ((state.journal ++ _).filterMap consumedId?).Nodup
    rw [List.filterMap_append, new, List.nodup_append]
    refine ⟨accounted.once, accounted.keys.sublist (List.filter_sublist.map _), ?_⟩
    -- a row that was consumed before is not hit
    rintro id old _ hitId rfl
    obtain ⟨entry, member, isConsumed⟩ := List.mem_filterMap.mp old
    obtain ⟨⟨token, consumer⟩, consumes, rfl⟩ := Option.map_eq_some_iff.mp isConsumed
    obtain ⟨row, isHit, same⟩ := List.mem_map.mp hitId
    obtain ⟨stored, hit⟩ := List.mem_filter.mp isHit
    obtain ⟨earlier, -, -, kept⟩ := (accounted.settled entry member token consumer
      (Event.consumption?_eq_some.mp consumes)).intime
    obtain rfl : row = { token with consumedAt := some earlier.now } :=
      accounted.keys.eq_of_key stored kept same
    cases open_ _ hit

end Invariant

/-! ### The law of the calls -/

/-- What every step keeps. -/
def KeepsAccount (presented : Presented) (issued : List VerificationToken) (before after : State) :
    Prop :=
  Accounted presented issued before → Accounted presented issued after

/-- Until it has consumed a token, a call changes nothing that another service reads. -/
def WaitsForToken (call : ℕ) (before after : State) : Prop :=
  QuietStep before.store after.store ∨ Consumed call after

section Laws

variable (presented : Presented) (issued : List VerificationToken)

/-- The steps of the schedule. -/
abbrev Presented.admits (_ : State) (call : ℕ) (input : Input) (_ : List Event) : Prop :=
  (call, input) ∈ presented.schedule

abbrev Law.presenting : Law Input World Event :=
  .accountable presented.admits (KeepsAccount presented issued) WaitsForToken

abbrev Law.accounting : Law Input World Event :=
  .concurrent presented.admits (KeepsAccount presented issued)

variable {presented issued}

theorem keepsAccount_refl (state : State) : KeepsAccount presented issued state state := id

theorem keepsAccount_trans (first second third : State)
    (early : KeepsAccount presented issued first second)
    (late : KeepsAccount presented issued second third) :
    KeepsAccount presented issued first third := fun holds => late (early holds)

/-- After the consumption only the account is to be kept. -/
instance : Frames (.accounting presented issued)
    (KeepsAccount presented issued) (fun db : Db => db.verificationTokens)
    fun event => event.consumption?.isSome = true := by
  refine Frames.concurrent keepsAccount_refl keepsAccount_trans (fun _ _ => rfl) ?_
  intro state call input world events _ same _ silent accounted
  refine accounted.frame same ?_
  intro event member
  exact Option.not_isSome_iff_eq_none.mp (silent event member)

instance (call : ℕ) : Calm (.presenting presented issued) call
    (KeepsAccount presented issued) where
  refl := keepsAccount_refl
  trans := keepsAccount_trans
  rely _ _ relied := relied.1
  quiet := by
    intro state input world _ step
    obtain ⟨auditLogEntries, equal⟩ := step.db
    have kept : KeepsAccount presented issued state (state.advance call input (world, [])) :=
      fun accounted => accounted.frame (by rw [equal]) fun _ member => nomatch member
    exact ⟨⟨kept, .inl step⟩, kept⟩

/-- How a presentation ends: with success only if it has consumed a token. -/
def Earned (call : ℕ) {α : Type} (outcome : Except AppException α) (state : State) : Prop :=
  ∀ value, outcome = .ok value → Consumed call state

theorem earned_error {call : ℕ} {α : Type} {exception : AppException} {state : State} :
    Earned call (.error exception : Except AppException α) state :=
  fun _ impossible => nomatch impossible

/-- What follows a consumption may do whatever keeps the account. -/
theorem earns_after {α : Type} {program : Action α} {call : ℕ} {state : State}
    (keeps : Keeps (.accounting presented issued)
      (KeepsAccount presented issued) program) (consumed : Consumed call state) :
    program.wp (.presenting presented issued) call (Earned call) state := by
  refine Program.wp_mono (Program.wp_accountable (fun _ _ => .untouched) ?_ ?_ (keeps call state)
    consumed) ?_
  · intro current input outcome reached
    exact reached.advance input outcome
  · intro before after reached
    exact .inr reached
  · intro outcome after reached value _
    exact reached.2

/-- The reading is one of the steps of the call. -/
theorem earns_utcNow {α : Type} {call : ℕ} {rest : Instant → Action α} {state : State}
    (earns : ∀ reading later, (call, reading) ∈ presented.schedule →
      (rest reading.now).wp (.presenting presented issued) call (Earned call) later) :
    (Action.utcNow >>= rest).wp (.presenting presented issued) call (Earned call) state := by
  have calm : Calm (.presenting presented issued) call (KeepsAccount presented issued) :=
    inferInstance
  rw [Program.wp_bind]
  intro current _ input own
  obtain ⟨kept, -⟩ := calm.quiet current input current.store own (.refl _)
  exact ⟨kept, earns input _ own⟩

/-- The update hits nothing, or the call has consumed a token. -/
theorem earns_consume {α : Type} {call : ℕ} {presentation : Presentation}
    (presents : presented.presentations[call]? = some presentation) {token : String}
    (carries : presentation.token? = some token) {reading : Input}
    (own : (call, reading) ∈ presented.schedule) {rest : ℕ → Action α} {state : State}
    (missed : ∀ later, (rest 0).wp (.presenting presented issued) call (Earned call) later)
    (continues : ∀ count, Keeps (.accounting presented issued)
      (KeepsAccount presented issued) (rest count)) :
    (VerificationTokens.consume
      (presented.services.tokenGenerator.hash token) presentation.consumer.type
      reading.now presentation.consumer.requires presentation.consumer >>= rest).wp
        (.presenting presented issued) call (Earned call) state := by
  have calm : Calm (.presenting presented issued) call
    (KeepsAccount presented issued) := inferInstance
  have hashed : presentation.hash? presented.services =
      some (presented.services.tokenGenerator.hash token) := by
    rw [Presentation.hash?, carries]
    rfl
  rw [Program.wp_bind]
  refine VerificationTokens.wp_consume calm ?_
  intro current input _ hits events marked consumed _
  have kept : KeepsAccount presented issued current consumed :=
    fun accounted => accounted.consume presents hashed own
  by_cases none : hits = []
  case pos =>
    have same : marked = current.store.db.verificationTokens := by
      apply Table.updateWhere_eq_self
      intro row member
      exact Bool.eq_false_iff.mpr fun hit => List.filter_eq_nil_iff.mp none row member hit
    have quiet : QuietStep current.store consumed.store := by
      refine ⟨⟨current.store.db.auditLogEntries, ?_⟩, Nat.le_refl _, rfl⟩
      show { current.store.db with verificationTokens := marked } = current.store.db
      rw [same]
    refine ⟨⟨kept, .inl quiet⟩, ?_⟩
    rw [none]
    exact missed consumed
  case neg =>
    have isConsumed : Consumed call consumed := by
      obtain ⟨row, hit⟩ := List.exists_mem_of_ne_nil hits none
      refine ⟨.verificationTokenConsumed row presentation.consumer, ?_, rfl⟩
      rw [Shared.eventsOf_advance]
      exact List.mem_append_right _ (List.mem_map_of_mem hit)
    exact ⟨⟨kept, .inr isConsumed⟩, earns_after (continues _) isConsumed⟩

/-! ### The operations -/

section Operations

variable {fido2 : Fido2} {call : ℕ} {state : State}

abbrev Accounting (presented : Presented) (issued : List VerificationToken) {α : Type}
    (program : Action α) : Prop :=
  Keeps (.accounting presented issued) (KeepsAccount presented issued) program

theorem accounting_updateUser {original current : User} :
    Accounting presented issued
      (Action.saveChanges fun now db => db.updateUser now original current) := by
  apply Keeps.frame_saveChanges
  intro now db after saved
  obtain ⟨-, rfl⟩ := Db.updateUser_eq_ok.mp saved
  rfl

theorem accounting_session {services : Services} (http : HttpContext) (userId : Guid)
    (methods : List AuthenticationMethod) : Accounting presented issued
      (AuthenticationSessionFactory.createAsync services http userId methods) :=
  AuthenticationSessionFactory.createAsync_frame (fun _ _ => rfl) (fun _ _ => rfl) services http _ _

/-- Reporting the failure of a second factor is quiet. -/
theorem earns_mfaFailure {α : Type} {http : HttpContext} {userId : Option Guid} :
    (LoginService.mfaFailureAsync http userId : Action α).wp
      (.presenting presented issued) call (Earned call) state := by
  have calm : Calm (.presenting presented issued) call
    (KeepsAccount presented issued) := inferInstance
  rw [LoginService.mfaFailureAsync, Program.wp_bind]
  refine AuditLogger.wp_logAsync calm ?_
  intro later _
  exact earned_error

theorem earns_completeMfa {http : HttpContext} {mfaTicket code : String}
    (presents : presented.presentations[call]? = some (.completeMfa http mfaTicket code)) :
    (LoginService.completeMfaAsync presented.services http mfaTicket code).wp
      (.presenting presented issued) call (Earned call) state := by
  unfold LoginService.completeMfaAsync MfaTicketService.consumeAsync
  rw [Program.bind_assoc]
  refine earns_utcNow fun reading later own => ?_
  rw [Program.bind_assoc]
  refine earns_consume presents rfl own ?_ ?_
  · intro later
    exact earns_mfaFailure
  · intro count
    have fails : ∀ userId, Accounting presented issued
        (LoginService.mfaFailureAsync http userId : Action LoginResponse) :=
      fun _ => .bind (.logAsync http _ _) fun _ => .throw _
    refine .bind (.ite (.pure _) (.queryOrThrow _)) fun userId => ?_
    cases userId with
    | none => exact fails none
    | some userId =>
        refine .bind ?_ fun method => ?_
        · exact TotpService.verifyAsync_frame (fun _ _ => rfl) (fun _ _ => rfl) (fun _ _ => nofun)
            (fun _ => nofun) presented.services userId code
        cases method with
        | none => exact fails _
        | some method =>
            exact .bind (accounting_session http _ _) fun _ => .bind (.logAsync http _ _)
              fun _ => .pure _

theorem earns_confirmEmail {http : HttpContext} {token : String}
    (presents : presented.presentations[call]? = some (.confirmEmail http token)) :
    (EmailVerificationService.confirmAsync presented.services http token).wp
      (.presenting presented issued) call (Earned call) state := by
  unfold EmailVerificationService.confirmAsync
  refine earns_utcNow fun reading later own => ?_
  refine earns_consume presents rfl own ?_ ?_
  · intro later
    exact earned_error
  · intro count
    apply Keeps.guard
    apply Keeps.bind (.queryOrThrow _)
    intro found
    apply Keeps.bind (.queryOrThrow _)
    intro user
    exact .bind accounting_updateUser fun _ => .bind (.logAsync http _ _) fun _ => .pure _

theorem earns_confirmReset {http : HttpContext} {token newPassword : String}
    (presents : presented.presentations[call]? = some (.confirmReset http token newPassword)) :
    (PasswordResetService.confirmAsync presented.services http token newPassword).wp
      (.presenting presented issued) call (Earned call) state := by
  unfold PasswordResetService.confirmAsync
  refine earns_utcNow fun reading later own => ?_
  refine earns_consume presents rfl own ?_ ?_
  · intro later
    exact earned_error
  · intro count
    apply Keeps.guard
    apply Keeps.bind (.queryOrThrow _)
    intro found
    apply Keeps.bind (.orThrow _ _)
    intro userId
    apply Keeps.bind (.queryOrThrow _)
    intro user
    apply Keeps.bind .draw
    intro salt
    apply Keeps.bind .draw
    intro stamp
    refine .bind accounting_updateUser
      fun _ => .bind ?_ fun _ => .bind (.logAsync http _ _) fun _ =>
      .bind (.notifyAsync _ _ _) fun _ => .ite (.logAsync http _ _) (.pure _)
    exact SessionService.revokeAllForUserAsync_frame (fun _ _ => rfl) _ _ _

/-- Exceptions that are replaced earn nothing either. -/
theorem earned_tryCatch {α : Type} {program : Action α} {exception : AppException}
    (earns : program.wp (.presenting presented issued) call (Earned call) state) :
    (tryCatch program fun _ => throw exception).wp (.presenting presented issued) call
      (Earned call) state := by
  rw [Program.wp_tryCatch]
  refine Program.wp_mono earns ?_
  intro outcome after earned
  cases outcome with
  | ok value => exact earned
  | error _ => exact earned_error

theorem earns_orThrow {α β : Type} {exception : AppException} {found : Option β}
    {rest : β → Action α}
    (earns : ∀ value, found = some value →
      (rest value).wp (.presenting presented issued) call (Earned call) state) :
    (Action.orThrow exception found >>= rest).wp (.presenting presented issued) call
      (Earned call) state := by
  cases found with
  | none => exact earned_error
  | some value => exact earns value rfl

/-- A challenge is consumed, or the call is refused. -/
theorem earns_challenge {α : Type} {presentation : Presentation}
    (presents : presented.presentations[call]? = some presentation) {challenge : String}
    (carries : presentation.token? = some challenge) {userId : Option Guid}
    (owned : presentation.consumer.requires = fun token : VerificationToken =>
      token.userId = userId) {rest : Unit → Action α}
    (continues : ∀ done, Accounting presented issued (rest done)) :
    (PasskeyService.consumeChallengeAsync presented.services challenge
      presentation.consumer.type userId
      presentation.consumer >>= rest).wp (.presenting presented issued) call (Earned call)
        state := by
  unfold PasskeyService.consumeChallengeAsync
  rw [Program.bind_assoc]
  refine earns_utcNow fun reading later own => ?_
  rw [Program.bind_assoc, ← owned]
  refine earns_consume presents carries own ?_ ?_
  · intro later
    exact earned_error
  · intro count
    exact .bind (.ite (.throw _) (.pure _)) continues

theorem earns_passkeyRegistration {userId : Guid} {request : AuthenticatorResponse}
    {label : Option String}
    (presents : presented.presentations[call]? = some (.passkeyRegistration userId request label)) :
    (PasskeyService.completeRegistrationAsync presented.services fido2 userId request label).wp
      (.presenting presented issued) call (Earned call) state := by
  refine earned_tryCatch (earns_orThrow fun raw _ => earns_orThrow fun challenge carries => ?_)
  refine earns_challenge presents carries rfl fun _ => ?_
  apply Keeps.bind (.queryOrThrow _)
  intro user
  apply Keeps.bind (.orThrow _ _)
  intro result
  apply Keeps.bind (.query _)
  intro found
  apply Keeps.guard
  apply Keeps.bind .draw
  intro id
  apply Keeps.bind
  · refine .frame_saveChanges ?_
    intro now db after saved
    obtain ⟨rows, -, equal⟩ := bind_eq_ok.mp saved
    rw [pure_eq_ok.mp equal]
  intro _
  exact .bind (.notifyAsync _ _ _) fun _ => .pure _

theorem earns_passkeyAuthentication {http : HttpContext} {request : AuthenticatorResponse}
    (presents : presented.presentations[call]? = some (.passkeyAuthentication http request)) :
    (PasskeyService.completeAuthenticationAsync presented.services fido2 http request).wp
      (.presenting presented issued) call (Earned call) state := by
  refine earned_tryCatch (earns_orThrow fun raw _ => earns_orThrow fun challenge carries => ?_)
  refine earns_challenge presents carries rfl fun _ => ?_
  apply Keeps.bind (.orThrow _ _)
  intro credentialId
  apply Keeps.bind (.queryOrThrow _)
  intro found
  apply Keeps.bind (.orThrow _ _)
  intro credential
  apply Keeps.guard
  apply Keeps.bind (.orThrow _ _)
  intro signCount
  apply Keeps.guard
  apply Keeps.bind .utcNow
  intro now
  apply Keeps.bind
  · refine .frame_reporting ?_ ?_
    · intro now db after saved
      obtain ⟨-, rfl⟩ := Db.updatePasskeyCredential_eq_ok.mp saved
      rfl
    · intro db event member
      exact List.mem_singleton.mp member ▸ nofun
  intro _
  apply Keeps.bind (accounting_session http _ _)
  intro _
  exact .bind (.logAsync http _ _) fun _ => .pure _

theorem accounting_createUser (services : Services) (linked : Option Guid) (name : String)
    (identity : SocialIdentity) :
    Accounting presented issued
      (SocialAuthService.createUserAsync services linked name identity) := by
  apply Keeps.bind
  · exact .ite (.pure _) (.query _)
  intro _
  apply Keeps.bind .draw
  intro drawn
  apply Keeps.bind .draw
  intro _
  apply Keeps.bind .draw
  intro _
  apply Keeps.bind
  · refine .frame_atomically ?_ ?_ ?_
    · intro input world
      dsimp only
      split
      case h_1 db saved =>
        obtain ⟨-, -, -, equal⟩ := SocialAuthService.addLinkedUser_eq_ok saved
        rw [equal]
      case h_2 => rfl
    · intro input world
      dsimp only
      split <;> exact Nat.le_refl _
    · intro input world event member
      dsimp only at member
      split at member <;> exact List.mem_singleton.mp member ▸ nofun
  intro _
  exact .pure _

theorem earns_done {α β : Type} {found : Except AppException β} {rest : β → Action α}
    (earns : ∀ value, (rest value).wp (.presenting presented issued) call (Earned call) state) :
    (Program.done found >>= rest).wp (.presenting presented issued) call (Earned call)
      state := by
  cases found with
  | error exception => exact earned_error
  | ok value => exact earns value

theorem earns_socialCallback {host : SocialHost} {http : HttpContext} {answers : ProviderAnswers}
    {provider : String} {query : SocialCallbackQuery}
    (presents : presented.presentations[call]? =
      some (.socialCallback host http answers provider query)) :
    (SocialAuthService.callbackAsync presented.services host http answers provider query).wp
      (.presenting presented issued) call (Earned call) state := by
  refine earns_done fun name => ?_
  split
  case isTrue => exact earned_error
  case isFalse complete =>
    obtain ⟨token, carries⟩ : ∃ token, query.state = some token := by
      apply Option.ne_none_iff_exists'.mp
      intro absent
      rw [absent] at complete
      exact complete (Bool.or_true _)
    unfold SocialAuthService.consumeStateAsync
    rw [carries, Program.bind_assoc]
    refine earns_utcNow fun reading later own => ?_
    rw [Program.bind_assoc]
    refine earns_consume presents carries own ?_ ?_
    · intro later
      exact earned_error
    · intro count
      apply Keeps.bind
      · exact .ite (.throw _) (.pure _)
      intro _
      apply Keeps.bind (.done _)
      intro identity
      apply Keeps.bind
      · refine .bind (.queryOrThrow _) fun linked => ?_
        cases linked with
        | some user => exact .pure user
        | none =>
            refine .bind (accounting_createUser presented.services _ name identity) fun _ => ?_
            exact .bind (.logAsync http _ _) fun _ => .pure _
      intro _
      apply Keeps.bind (accounting_session http _ _)
      intro _
      exact .bind (.logAsync http _ _) fun _ => .pure _

theorem earned_discard {α : Type} {program : Action α}
    (earns : program.wp (.presenting presented issued) call (Earned call) state) :
    (program >>= fun _ => pure ()).wp (.presenting presented issued) call (Earned call)
      state := by
  refine Program.wp_bind_of earns ?_ ?_
  · intro value later earned _ _
    exact earned value rfl
  · intro exception later _
    exact earned_error

theorem Presentation.earns {presentation : Presentation}
    (presents : presented.presentations[call]? = some presentation) :
    (presentation.operation.program presented.services fido2).wp (.presenting presented issued) call
      (Earned call) state := by
  cases presentation with
  | completeMfa http mfaTicket code => exact earned_discard (earns_completeMfa presents)
  | confirmEmail http token => exact earned_discard (earns_confirmEmail presents)
  | confirmReset http token newPassword => exact earns_confirmReset presents
  | passkeyRegistration userId request label =>
      exact earned_discard (earns_passkeyRegistration presents)
  | passkeyAuthentication http request =>
      exact earned_discard (earns_passkeyAuthentication presents)
  | socialCallback host http answers provider query =>
      exact earned_discard (earns_socialCallback presents)

end Operations

/-! ### Runs -/

/-- What a run of presentations makes of the tokens. -/
structure ConsumedOnce (presented : Presented) (issued : List VerificationToken)
    (pool : Pool Input World Event AppException Unit) : Prop where
  /-- A token is consumed for its purpose, by a call that presented it, and before its expiry. -/
  settled : ∀ entry ∈ (pool.run presented.schedule).shared.journal, ∀ token consumer,
    entry.event = .verificationTokenConsumed token consumer →
      Settled presented issued (pool.run presented.schedule).shared.store.db.verificationTokens
        entry.call token consumer
  /-- A row is consumed once. -/
  once : ∀ left ∈ (pool.run presented.schedule).shared.journal,
    ∀ right ∈ (pool.run presented.schedule).shared.journal, ∀ token consumer other another,
      left.event = .verificationTokenConsumed token consumer →
        right.event = .verificationTokenConsumed other another → token.id = other.id → left = right
  /-- One call at most consumes what is presented. -/
  alone : ∀ left right first second hash, presented.presentations[left]? = some first →
    presented.presentations[right]? = some second → first.hash? presented.services = some hash →
      second.hash? presented.services = some hash →
        Consumed left (pool.run presented.schedule).shared →
          Consumed right (pool.run presented.schedule).shared → left = right
  /-- Without a consumption of its own, a call does not succeed. -/
  earned : ∀ call, (pool.run presented.schedule).outcome? call = some (.ok ()) →
    Consumed call (pool.run presented.schedule).shared
  /-- Without one, it adds audit entries and queues mails at most. -/
  waits : ∀ before call input after, presented.schedule = before ++ (call, input) :: after →
    ¬ Consumed call ((pool.run before).step call input).shared →
      QuietStep (pool.run before).shared.store ((pool.run before).step call input).shared.store

theorem parallel_presenting :
    Pool.Parallel (.presenting presented issued) (KeepsAccount presented issued) where
  refl := keepsAccount_refl
  trans := keepsAccount_trans
  rely _ _ _ related untouched := ⟨related, untouched⟩
  guarantee _ _ _ kept := kept.1

theorem Accounted.once_entry {state : State} (accounted : Accounted presented issued state)
    {left right : Entry Input Event} (leftMember : left ∈ state.journal)
    (rightMember : right ∈ state.journal) {token other : VerificationToken}
    {consumer another : TokenConsumer}
    (leftConsumes : left.event = .verificationTokenConsumed token consumer)
    (rightConsumes : right.event = .verificationTokenConsumed other another)
    (same : token.id = other.id) : left = right := by
  have leftId : consumedId? left = some token.id := by
    rw [consumedId?, leftConsumes]
    rfl
  have rightId : consumedId? right = some token.id := by
    rw [consumedId?, rightConsumes, same]
    rfl
  exact Shared.entry_eq_of_nodup accounted.once leftMember rightMember leftId rightId

/-- The steps of a part of the schedule are steps of the schedule. -/
theorem Presented.admitted {pool : Pool Input World Event AppException Unit}
    {part : List (ℕ × Input)} (isPart : ∀ step ∈ part, step ∈ presented.schedule) :
    pool.Admitted presented.admits part :=
  (Pool.admitted_any part).of_schedule fun _ _ _ _ _ member _ => isPart _ member

/-- However the presentations are interleaved. -/
theorem tokens_consumed_once (presented : Presented) (fido2 : Fido2) {start : State}
    (silent : start.journal = [])
    (keys : Table.Keyed VerificationToken.id start.store.db.verificationTokens)
    (hashes : Table.Keyed VerificationToken.tokenHash start.store.db.verificationTokens) :
    ConsumedOnce presented start.store.db.verificationTokens
      (presenting presented.services fido2 presented.presentations start) := by
  have begins : (presenting presented.services fido2 presented.presentations start).VerifiedUnder
      (.presenting presented start.store.db.verificationTokens)
      (KeepsAccount presented start.store.db.verificationTokens) (fun call => Earned call) := by
    intro call program running
    rw [presenting, List.getElem?_map] at running
    obtain ⟨presentation, presents, rfl⟩ := Option.map_eq_some_iff.mp running
    exact ⟨start, id, .refl _ _, presentation.earns presents⟩
  have accounts : Accounted presented start.store.db.verificationTokens start := by
    refine ⟨keys, fun _ member _ => member, ?_, ?_⟩
    · rw [silent]
      exact fun _ member => nomatch member
    · rw [silent]
      exact List.nodup_nil
  obtain ⟨reached, verified⟩ := Pool.run_verifiedUnder parallel_presenting begins
    (Presented.admitted fun _ member => member)
  have account := reached accounts
  constructor
  case settled => exact account.settled
  case once =>
    intro left leftMember right rightMember token consumer other another leftConsumes
      rightConsumes same
    exact account.once_entry leftMember rightMember leftConsumes rightConsumes same
  case alone =>
    intro left right first second hash presents presentsToo hashed hashedToo leftConsumed
      rightConsumed
    obtain ⟨entry, member, rfl, token, consumer, consumes⟩ := leftConsumed.entry
    obtain ⟨other, otherMember, rfl, another, rival, consumesToo⟩ := rightConsumed.entry
    have leftSettled := account.settled entry member token consumer consumes
    have rightSettled := account.settled other otherMember another rival consumesToo
    have same : token.tokenHash = another.tokenHash := by
      rw [← Option.some_inj, ← leftSettled.hash presents, ← rightSettled.hash presentsToo,
        hashed, hashedToo]
    obtain rfl : token = another :=
      hashes.eq_of_key leftSettled.issued rightSettled.issued same
    rw [account.once_entry member otherMember consumes consumesToo rfl]
  case earned =>
    intro call ended
    obtain ⟨earlier, -, untouched, earned⟩ := verified call _ (Pool.outcome?_eq_some.mp ended)
    exact (earned () rfl).untouched untouched
  case waits =>
    intro before call input after split unconsumed
    have early : ∀ step ∈ before, step ∈ presented.schedule := by
      intro step member
      rw [split]
      exact List.mem_append_left _ member
    have own : (call, input) ∈ presented.schedule := by
      rw [split]
      exact List.mem_append_right _ List.mem_cons_self
    obtain ⟨-, verifiedBefore⟩ :=
      Pool.run_verifiedUnder parallel_presenting begins (Presented.admitted early)
    have stepped := (Pool.step_verifiedUnder parallel_presenting verifiedBefore call input
      fun _ _ _ => own).1
    rcases stepped with idle | ⟨-, quiet | consumed⟩
    · rw [idle]
      exact .refl _
    · exact quiet
    · exact absurd consumed unconsumed

end Laws

/-- Two confirmations of one address, in turns. -/
def confirmations : Presented where
  services := .sample
  presentations := [.confirmEmail {} "t", .confirmEmail {} "t"]
  schedule := (List.range 24).map fun position => (position % 2, ⟨10, false⟩)

def confirmationMailed : World where
  db :=
    { users := [{ id := 1, email := "ada@example.test", securityStamp := 2 }]
      verificationTokens := [⟨3, some 1, .emailVerification, "sha256:t", 1000, none, 0, 0⟩] }
  supply := 4

def noFido2 : Fido2 := ⟨fun _ _ _ => none, fun _ => none⟩

/-- Both confirmations take all their steps, and only one of them consumes the token. -/
theorem tokens_consumed_once_sample :
    let pool := presenting .sample noFido2 confirmations.presentations
      (Shared.initial confirmationMailed ⟨10, false⟩)
    ConsumedOnce confirmations confirmationMailed.db.verificationTokens pool ∧
      (pool.run confirmations.schedule).outcome? 0 = some (.ok ()) ∧
      (pool.run confirmations.schedule).outcome? 1 = some (.error .invalidToken) := by
  refine ⟨?_, by decide +kernel, by decide +kernel⟩
  exact @tokens_consumed_once confirmations noFido2
    (Shared.initial confirmationMailed ⟨10, false⟩) rfl
    (by decide) (by decide)

end AuthStartpack
