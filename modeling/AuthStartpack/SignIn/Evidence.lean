import AuthStartpack.Services.Issuance
import AuthStartpack.SignIn.Sessions
import AuthStartpack.Tokens.Consumption

/-!
Owns what a sign-in can show for the session that it ends in: what its call has
reported stays reported, a one-time token that it has consumed was presented in
its request and had not expired, and its last step adds one session, of the user
and the methods of the sign-in.
-/

namespace AuthStartpack

/-- What the call has reported, it has reported later. -/
def OwnKept (call : ℕ) (before after : State) : Prop :=
  ∀ event ∈ before.eventsOf call, event ∈ after.eventsOf call

instance {seen : ℕ → State → Input → Prop} {justified : ℕ → State → Session → Prop} {call : ℕ} :
    Calm (.signingIn seen justified) call (OwnKept call) where
  refl _ _ member := member
  trans _ _ _ early late event member := late event (early event member)
  rely _ _ untouched event member := untouched.eventsOf ▸ member
  quiet state input world _ step := by
    obtain ⟨auditLogEntries, equal⟩ := step.db
    refine ⟨?_, fun event member => ?_⟩
    · show AddsJustified _ state.store.db.sessions world.db.sessions
      rw [equal]
      exact (NoneNew.refl _).addsJustified _
    · rw [Shared.eventsOf_advance, List.append_nil]
      exact member

section Ends

variable {services : Services} {http : HttpContext} {seen : ℕ → State → Input → Prop}
variable {justified : ℕ → State → Session → Prop} {call : ℕ} {K : State → State → Prop}
variable {state : State}

/-- The end of a sign-in adds the session of its user and its methods. -/
theorem AuthenticationSessionFactory.wp_createAsync (calm : Calm (.signingIn seen justified) call K)
    {userId : Guid} {methods : List AuthenticationMethod}
    (allowed : ∀ current row, K state current → row.userId = userId →
      row.authenticationMethods = methods → justified call current row) :
    (createAsync services http userId methods).wp (.signingIn seen justified) call (fun _ _ => True)
      state := by
  simp only [createAsync, Program.wp_bind]
  refine Action.calm_queryOrThrow calm ?_
  intro read reached
  cases Action.single (read.store.db.users.filter (·.id = userId)) with
  | error exception => trivial
  | ok user =>
  simp only [Program.andThen_ok, Program.wp_bind]
  refine Action.calm_query calm ?_
  intro withRoles roles
  simp only [Program.andThen_ok, Program.wp_bind]
  refine Action.calm_utcNow calm ?_
  intro dated date
  have arrived := calm.trans _ _ _ (calm.trans _ _ _ reached roles) date
  simp only [Program.andThen_ok, Program.wp_bind]
  have rest : ∀ sessionId later,
      (RefreshTokenService.issueAsync services sessionId).wp (.signingIn seen justified) call
        (fun _ _ => True) later :=
    fun sessionId later =>
      RefreshTokenService.issueAsync_frame (K := fun _ _ => True)
        (fun _ _ => rfl) services _ call later
  refine SessionService.wp_createAsync calm ?_ (fun _ _ _ _ => trivial)
    fun _ _ _ _ _ _ _ _ => trivial
  intro current row input db prepared saved _
  obtain ⟨dating, -, isNew⟩ := prepared.dated
  obtain ⟨-, rfl⟩ := Db.insertSession_eq_ok.mp saved
  refine ⟨.append (allowed current _ (calm.trans _ _ _ arrived prepared.reached) ?_ ?_), ?_⟩
  · show row.userId = userId
    rw [isNew]
    rfl
  · show row.authenticationMethods = methods
    rw [isNew]
    rfl
  · refine Program.wp_bind_of (rest row.id _) ?_ fun _ _ _ => trivial
    intro issued later _
    refine Program.wp_bind_of (Keeps.accessToken (K := fun _ _ => True) services _ call later) ?_
      fun _ _ _ => trivial
    exact fun _ _ _ => trivial

/-- A step of the call that writes no session. -/
theorem signingIn_elsewhere (current : State) (input : Input) {world : World} (events : List Event)
    (same : world.db.sessions = current.store.db.sessions) :
    (Law.signingIn seen justified).guarantee call current
      (current.advance call input (world, events)) ∧
      OwnKept call current (current.advance call input (world, events)) := by
  refine ⟨?_, fun event member => ?_⟩
  · show AddsJustified _ current.store.db.sessions world.db.sessions
    rw [same]
    exact (NoneNew.refl _).addsJustified _
  · rw [Shared.eventsOf_advance]
    exact List.mem_append_left _ member

end Ends

/-! ### One-time tokens -/

/-- The call has consumed this token, whose text was in the request. -/
structure ConsumedHere (services : Services) (seen : ℕ → State → Input → Prop) (call : ℕ)
    (consumer : TokenConsumer) (text : String) (events : List Event) (token : VerificationToken) :
      Prop where
  reported : .verificationTokenConsumed token consumer ∈ events
  presented : token.tokenHash = services.tokenGenerator.hash text
  takes : consumer.Takes token
  live : ∃ moment input, seen call moment input ∧ input.now < token.expiresAt

section Consumption

variable {services : Services} {seen : ℕ → State → Input → Prop}
variable {justified : ℕ → State → Session → Prop} {call : ℕ} {state : State}

theorem ConsumedHere.mono {consumer : TokenConsumer} {text : String} {events more : List Event}
    {token : VerificationToken}
    (consumed : ConsumedHere services seen call consumer text events token)
    (included : ∀ event ∈ events, event ∈ more) :
    ConsumedHere services seen call consumer text more token :=
  { consumed with reported := included _ consumed.reported }

/-- What presenting a token ends with, unless it throws. -/
def Presents (services : Services) (seen : ℕ → State → Input → Prop) (call : ℕ)
    (consumer : TokenConsumer) (text : String) : Except AppException ℕ → State → Prop
  | .ok count, later => count ≠ 0 →
      ∃ token, ConsumedHere services seen call consumer text (later.eventsOf call) token
  | .error _, _ => True

/-- The conditional update, with a reading of its call. -/
theorem VerificationTokens.wp_consumedHere {consumer : TokenConsumer} {text : String}
    {now : Instant}
    {dated : State} {clock : Input} (timed : seen call dated clock) (isReading : clock.now = now) :
    (consume (services.tokenGenerator.hash text) consumer.type now consumer.requires consumer).wp
      (.signingIn seen justified) call (Presents services seen call consumer text) state := by
  have calm : Calm (.signingIn seen justified) call (OwnKept call) := inferInstance
  refine VerificationTokens.wp_consume calm ?_
  intro current input _ hits events marked consumed _
  obtain ⟨kept, -⟩ := @signingIn_elsewhere seen justified call current input _ events rfl
  refine ⟨kept, fun some_ => ?_⟩
  obtain ⟨token, hit⟩ := List.exists_mem_of_length_pos (Nat.pos_of_ne_zero some_)
  obtain ⟨presented, type, requires, -, live⟩ :=
    VerificationTokens.consumable_iff.mp (List.mem_filter.mp hit).2
  refine ⟨token, ?_, presented, ⟨type, requires⟩, dated, clock, timed, isReading ▸ live⟩
  rw [Shared.eventsOf_advance]
  exact List.mem_append_right _ (List.mem_map_of_mem hit)

end Consumption

end AuthStartpack
