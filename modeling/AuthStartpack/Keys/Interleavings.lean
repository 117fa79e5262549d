import AuthStartpack.Keys.SignedTokens
import AuthStartpack.Program.Pool

/-!
Owns the operations on signing keys in any interleaving, on any number of
instances. At most one key is active, a status moves from active over retiring
to retired, whoever loses a race changes nothing, and every token that is
returned was signed by the one key that its header names.
-/

namespace AuthStartpack

inductive KeyOperation
  | bootstrap
  | rotate (http : HttpContext)
  | retireElapsed (process : ℕ)
  | issue (http : HttpContext) (request : AccessTokenRequest)

inductive KeyResponse
  | active (keyId : String)
  | rotated (keyId : String)
  | retired (count : ℕ)
  | issued (token : IssuedSignedToken)
deriving DecidableEq, Repr

def KeyOperation.program (services : Services) : KeyOperation → Action KeyResponse
  | bootstrap => do return .active (← SigningKeyManager.getActiveKeyIdAsync services)
  | rotate http => do return .rotated (← SigningKeyManager.rotateAsync services http)
  | retireElapsed process => do
      return .retired (← SigningKeyManager.retireElapsedKeysAsync services process)
  | issue http request => do
      return .issued (← AccessTokenIssuer.issueSignedAsync services http request)

abbrev KeyPool := Pool Input World Event AppException KeyResponse

/-- Operations that have not begun. -/
def operatingKeys (services : Services) (operations : List KeyOperation) (start : State) :
    KeyPool where
  shared := start
  calls := operations.map (·.program services)

/-! ### One step -/

/-- At most one event is reported. -/
def Brief (before after : State) : Prop := after.journal.length ≤ before.journal.length + 1

theorem brief_advance {state : State} {call : ℕ} {input : Input} {world : World}
    {events : List Event}
    (few : events.length ≤ 1) : Brief state (state.advance call input (world, events)) := by
  simp only [Brief, Shared.advance_journal, List.length_append, List.length_map]
  omega

instance (call : ℕ) : Calm (.stepwise (fun _ _ _ _ => True) Brief) call fun _ _ => True where
  refl _ := trivial
  trans _ _ _ _ _ := trivial
  rely _ _ _ := trivial
  quiet _ _ _ _ _ := ⟨brief_advance (Nat.zero_le 1), trivial⟩

/-- Every step of the program reports at most one event. -/
abbrev ReportsBriefly {α : Type} (program : Action α) : Prop :=
  Keeps (.stepwise (fun _ _ _ _ => True) Brief) (fun _ _ => True) program

namespace ReportsBriefly

variable {α : Type}

theorem atomically {act : Input → World → Except AppException α × World × List Event}
    (few : ∀ input world, (act input world).2.2.length ≤ 1) :
    ReportsBriefly (Program.atomically act) :=
  fun _ _ current _ input _ => ⟨brief_advance (few input current.store), trivial⟩

theorem saveChanges {changes : Instant → Db → Except AppException Db} {events : Db → List Event}
    (few : ∀ db, (events db).length ≤ 1) : ReportsBriefly (Action.saveChanges changes events) :=
  Keeps.saveChanges fun _ _ _ _ _ _ _ _ => ⟨brief_advance (few _), trivial⟩

theorem attemptChanges {changes : Instant → Db → Except AppException Db} {events : List Event}
    (few : events.length ≤ 1) : ReportsBriefly (Action.attemptChanges changes events) := by
  refine atomically ?_
  intro input world
  cases changes input.now world.db with
  | ok db => exact few
  | error exception => exact few

theorem createKey (services : Services) (now : Instant) :
    ReportsBriefly (SigningKeyManager.createKey services now) := by
  apply Keeps.bind .draw
  intro pair
  apply Keeps.bind .draw
  intro nonce
  exact .bind .draw fun _ => .pure _

theorem getOrCreateActiveKeyAsync (services : Services) :
    ReportsBriefly (SigningKeyManager.getOrCreateActiveKeyAsync services) := by
  refine .bind (.queryOrThrow _) fun active => ?_
  cases active with
  | some key => exact .pure key
  | none =>
      refine .bind .utcNow fun _ => .bind (createKey services _) fun created => ?_
      apply Keeps.bind
      · apply Keeps.tryCatch
        · exact .bind (attemptChanges (Nat.le_refl 1)) fun _ => .pure _
        intro exception
        exact .ite (.pure _) (.throw _)
      intro saved
      exact .ite (.pure _) (.queryOrThrow _)

theorem rotateAsync (services : Services) (http : HttpContext) :
    ReportsBriefly (SigningKeyManager.rotateAsync services http) := by
  apply Keeps.bind .utcNow
  intro now
  apply Keeps.bind (.queryOrThrow _)
  intro current
  apply Keeps.bind (createKey services _)
  intro replacement
  apply Keeps.bind
  · exact attemptChanges (Nat.le_refl 1)
  intro _
  exact .bind (.logAsync _ _ _) fun _ => .pure _

theorem sign (services : Services) (key : SigningKey) (payload : String) :
    ReportsBriefly (SigningKeyManager.sign services key payload) :=
  .bind (.orThrow _ _) fun _ => .bind (atomically fun _ _ => Nat.le_refl 1) fun _ => .pure _

theorem signAsync (services : Services) (http : HttpContext) (payload : String) :
    ReportsBriefly (SigningKeyManager.signAsync services http payload) := by
  apply Keeps.bind (getOrCreateActiveKeyAsync services)
  intro key
  apply Keeps.tryCatch (sign services _ payload)
  intro exception
  apply Keeps.ite
  · apply Keeps.bind (rotateAsync services http)
    intro _
    exact .bind (getOrCreateActiveKeyAsync services) fun _ => sign services _ payload
  · exact .throw _

theorem signPayload (services : Services) (http : HttpContext) (payload : AccessToken)
    (attempts : ℕ) :
    ReportsBriefly (AccessTokenIssuer.signPayload services http payload attempts) := by
  induction attempts with
  | zero => exact .throw _
  | succ attempts inductionHypothesis =>
      apply Keeps.bind
      · exact .bind (getOrCreateActiveKeyAsync services) fun _ => .pure _
      intro _
      apply Keeps.bind (signAsync services http _)
      intro _
      exact .ite inductionHypothesis (.pure _)

theorem retireKeys (keys : List SigningKey) :
    ReportsBriefly (SigningKeyManager.retireKeys keys) := by
  induction keys with
  | nil => exact .pure []
  | cons key rest inductionHypothesis =>
      exact .bind .utcNow fun _ => .bind inductionHypothesis fun _ => .pure _

theorem removeKeys (services : Services) (process : ℕ) (keys : List SigningKey) :
    ReportsBriefly (SigningKeyManager.removeKeys services process keys) := by
  induction keys with
  | nil => exact .pure ()
  | cons key rest inductionHypothesis =>
      apply Keeps.bind
      · apply Keeps.bind
        · exact atomically fun _ _ => Nat.zero_le 1
        intro _
        apply Keeps.ite
        · exact atomically fun _ _ => Nat.zero_le 1
        · exact .pure ()
      intro _
      exact inductionHypothesis

theorem retireElapsedKeysAsync (services : Services) (process : ℕ) :
    ReportsBriefly (SigningKeyManager.retireElapsedKeysAsync services process) := by
  apply Keeps.bind .utcNow
  intro now
  apply Keeps.bind (.query _)
  intro keys
  apply Keeps.bind (retireKeys keys)
  intro retired
  apply Keeps.ite
  · apply Keeps.bind
    · exact saveChanges fun _ => Nat.le_refl 1
    intro _
    exact .bind (removeKeys services process keys) fun _ => .pure _
  · exact .pure _

end ReportsBriefly

theorem KeyOperation.reportsBriefly (services : Services) (op : KeyOperation) :
    ReportsBriefly (op.program services) := by
  cases op with
  | bootstrap =>
      exact .bind (.bind (ReportsBriefly.getOrCreateActiveKeyAsync services) fun _ => .pure _)
        fun _ => .pure _
  | rotate http => exact .bind (ReportsBriefly.rotateAsync services http) fun _ => .pure _
  | retireElapsed process =>
      exact .bind (ReportsBriefly.retireElapsedKeysAsync services process) fun _ => .pure _
  | issue http request =>
      apply Keeps.bind
      · apply Keeps.bind
        · exact ReportsBriefly.atomically fun _ _ => Nat.le_refl 1
        intro _
        apply Keeps.bind .draw
        intro drawn
        exact .bind (ReportsBriefly.signPayload services http _ 3) fun _ => .pure _
      intro _
      exact .pure _

/-- What one step does to the ring: a key moves on by one status at most, every key starts active,
and a step that loses a race, or reports no save of keys, changes nothing. -/
structure RingMoves (before : List SigningKey) (events : List Event) (after : List SigningKey) :
    Prop where
  moves : ∀ key ∈ before, ∃ later ∈ after, key.Evolves later
  starts : ∀ later ∈ after, (∃ key ∈ before, key.id = later.id) ∨ later.status = .active
  silent : (∀ event ∈ events, ¬ event.ConcernsKeys) → after = before
  lost : ∀ demoted offered, events = [.signingKeyOffered demoted offered] →
    (∃ row ∈ before, row.status = .active ∧ ∀ old, demoted = some old → row.id ≠ old.id) →
    after = before

theorem RingMoves.unchanged (ring : List SigningKey) (events : List Event) :
    RingMoves ring events ring where
  moves key member := ⟨key, member, .refl key, .stays _⟩
  starts later member := .inl ⟨later, member, rfl⟩
  silent _ := rfl
  lost _ _ _ _ := rfl

theorem RingStep.ringMoves {before after : List SigningKey} {event : Event}
    (step : RingStep before event after) : RingMoves before [event] after where
  moves := step.moves
  starts := step.starts
  silent none := by
    have silent := none event List.mem_cons_self
    cases step with
    | other | refused => rfl
    | added | retired => exact absurd trivial silent
  lost demoted offered same winner := by
    cases same
    exact step.lost winner

/-- A step of a pool is one of the abstract ring. -/
def StepMovesRing (before after : State) : Prop :=
  ∃ added, after.journal = before.journal ++ added ∧
    RingMoves before.store.db.signingKeys (added.map Entry.event) after.store.db.signingKeys

theorem stepMovesRing_of_brief {before after : State} (accounted : KeysAccounted before after)
    (brief : Brief before after) : StepMovesRing before after := by
  obtain ⟨added, growth, leads⟩ := accounted
  refine ⟨added, growth, ?_⟩
  have few : added.length ≤ 1 := by
    unfold Brief at brief
    rw [growth, List.length_append] at brief
    omega
  cases added with
  | nil =>
      have same : after.store.db.signingKeys = before.store.db.signingKeys := Leads.nil_iff.mp leads
      rw [same]
      exact .unchanged _ _
  | cons entry rest =>
      obtain rfl : rest = [] := List.length_eq_zero_iff.mp (by simpa using few)
      have once : RingStep before.store.db.signingKeys entry.event after.store.db.signingKeys :=
        Leads.single_iff.mp leads
      exact once.ringMoves

/-! ### Every interleaving -/

/-- The one key of the ring that the header names has signed header and payload. -/
def SignedByNamedKey (services : Services) (token : SignedAccessToken) (ring : List SigningKey) :
    Prop :=
  ∃ key ∈ ring, key.keyId = token.header.kid ∧
    (∀ other ∈ ring, other.keyId = token.header.kid → other = key) ∧
    SignedBy services key (AccessTokenIssuer.signingInput services token.header token.payload)
      token.signature

theorem AccessTokenIssuer.Genuine.named {services : Services} {token : SignedAccessToken}
    {state : State} (genuine : Genuine services token state)
    (valid : ValidRing state.store.db.signingKeys) :
    SignedByNamedKey services token state.store.db.signingKeys := by
  obtain ⟨key, ⟨row, member, same⟩, named, privateKey, nonce, opened, signature⟩ := genuine
  have rowNamed : row.keyId = token.header.kid := same.keyId.trans named
  refine ⟨row, member, rowNamed, ?_, privateKey, nonce, ?_, signature⟩
  · intro other otherMember otherNamed
    exact Table.Keyed.eq_of_key valid.keyIds otherMember member (otherNamed.trans rowNamed.symm)
  · rw [same.privateKeyProtected]
    exact opened

/-- What an ended call has reported and returned. A bootstrap or a rotation has offered one key at
most; an issuing has made three signatures at most. -/
def KeyOperation.Agrees (services : Services) (call : ℕ) (start : State)
    (outcome : Except AppException KeyResponse) (final : State) : KeyOperation → Prop
  | bootstrap | rotate _ => ∃ events, SigningKeyManager.Offers events ∧
      final.eventsOf call = start.eventsOf call ++ events
  | retireElapsed _ => True
  | issue _ _ => (∃ events, signatures events ≤ 3 ∧
      final.eventsOf call = start.eventsOf call ++ events) ∧
      ∀ issued, outcome = .ok (.issued issued) →
        AccessTokenIssuer.Genuine services issued.value final

section

variable {services : Services} {operations : List KeyOperation} {start : State}

theorem KeyOperation.Agrees.later {op : KeyOperation} {call : ℕ} {before after : State}
    {outcome : Except AppException KeyResponse}
    (agrees : op.Agrees services call start outcome before)
    (accounted : KeysAccounted before after) (untouched : Shared.Untouched call before after) :
    op.Agrees services call start outcome after := by
  cases op with
  | bootstrap | rotate =>
      obtain ⟨events, offers, reported⟩ := agrees
      exact ⟨events, offers, untouched.eventsOf.trans reported⟩
  | retireElapsed => trivial
  | issue =>
      obtain ⟨⟨events, few, reported⟩, genuine⟩ := agrees
      refine ⟨⟨events, few, untouched.eventsOf.trans reported⟩, ?_⟩
      intro issued returned
      exact (genuine issued returned).later accounted

theorem KeyOperation.wp_program {op : KeyOperation} {call : ℕ}
    (valid : ValidRing start.store.db.signingKeys) :
    (op.program services).wp .keyring call
      (fun outcome after => op.Agrees services call start outcome after) start := by
  cases op with
  | bootstrap =>
      refine Program.wp_bind_of SigningKeyManager.getActiveKeyIdAsync_offers ?_ ?_
      · rintro keyId after ⟨⟨events, offers, reported⟩, -⟩
        exact ⟨events, offers, reported.events⟩
      · rintro exception after ⟨⟨events, offers, reported⟩, -⟩
        exact ⟨events, offers, reported.events⟩
  | rotate http =>
      refine Program.wp_bind_of (SigningKeyManager.rotateAsync_offers valid) ?_ ?_
      · rintro keyId after ⟨⟨events, offers, reported⟩, -⟩
        exact ⟨events, offers, reported.events⟩
      · rintro exception after ⟨⟨events, offers, reported⟩, -⟩
        exact ⟨events, offers, reported.events⟩
  | retireElapsed process =>
      refine Program.wp_bind_of (SigningKeyManager.retireElapsedKeysAsync_accounted valid) ?_ ?_
      · exact fun _ _ _ => trivial
      · exact fun _ _ _ => trivial
  | issue http request =>
      refine Program.wp_bind_of (AccessTokenIssuer.issueSignedAsync_genuine valid) ?_ ?_
      · rintro issued after ⟨⟨events, few, reported⟩, genuine⟩
        refine ⟨⟨events, few, reported.events⟩, ?_⟩
        rintro _ ⟨⟩
        exact genuine issued rfl
      · rintro exception after ⟨⟨events, few, reported⟩, -⟩
        exact ⟨⟨events, few, reported.events⟩, fun _ impossible => nomatch impossible⟩

theorem operatingKeys_verified (valid : ValidRing start.store.db.signingKeys) :
    (operatingKeys services operations start).Verified (fun _ _ _ _ => True) KeysAccounted
      (fun call outcome after => ∀ op, operations[call]? = some op →
        op.Agrees services call start outcome after) := by
  refine Pool.verified_of_wp Accounts.refl ?_
  intro call program present
  simp only [operatingKeys, List.getElem?_map, Option.map_eq_some_iff] at present
  obtain ⟨op, known, rfl⟩ := present
  refine Program.wp_mono (op.wp_program valid) ?_
  intro outcome after agrees other found
  obtain rfl := Option.some.inj (known.symm.trans found)
  exact agrees

/-- In every interleaving at most one key is active, every step moves the ring as the abstract ring
moves, and a token that was returned is signed by the one key that its header names. -/
theorem keyRing_agrees (valid : ValidRing start.store.db.signingKeys)
    (schedule : List (ℕ × Input)) :
    let final := (operatingKeys services operations start).run schedule
    AtMostOneActive final.shared.store.db.signingKeys ∧
      (∀ call input, StepMovesRing final.shared (final.step call input).shared) ∧
      ∀ call op outcome, operations[call]? = some op → final.outcome? call = some outcome →
        op.Agrees services call start outcome final.shared ∧
          ∀ http request issued, op = .issue http request → outcome = .ok (.issued issued) →
            SignedByNamedKey services issued.value final.shared.store.db.signingKeys := by
  intro final
  have verified := @operatingKeys_verified services operations start valid
  obtain ⟨accounted, stillVerified⟩ :=
    Pool.run_wp Accounts.refl Accounts.trans verified (Pool.admitted_any schedule)
  have finallyValid : ValidRing final.shared.store.db.signingKeys :=
    KeysAccounted.valid accounted valid
  refine ⟨finallyValid.active, ?_, ?_⟩
  · intro call input
    refine stepMovesRing_of_brief ?_ ?_
    · exact (Pool.step_verified Accounts.refl Accounts.trans stillVerified call input
        fun _ _ _ => trivial).1
    · refine Pool.run_stepwise (fun _ => Nat.le_succ _) ?_ (Pool.admitted_any _)
      intro other program present
      simp only [operatingKeys, List.getElem?_map, Option.map_eq_some_iff] at present
      obtain ⟨op, -, rfl⟩ := present
      exact ⟨start, op.reportsBriefly services other start⟩
  · intro call op outcome found ended
    obtain ⟨earlier, since, untouched, agrees⟩ := stillVerified.outcome ended
    have finally' := (agrees op found).later since untouched
    refine ⟨finally', ?_⟩
    rintro http request issued rfl returned
    exact AccessTokenIssuer.Genuine.named (finally'.2 issued returned) finallyValid

end

/-- Two instances create the first key, and the key is rotated while a token is issued. -/
def racingKeys : KeyPool :=
  operatingKeys .sample
    [.bootstrap, .bootstrap, .rotate {}, .issue {} ⟨1, 2, true, [], [.password], 0⟩]
    (Shared.initial { db := {} } ⟨90, false⟩)

/-- Both bootstraps save after both have read, and the rotation comes between header and
signature. -/
def rotatedWhileIssuing : List (ℕ × Input) :=
  let steps (call count : ℕ) : List (ℕ × Input) := List.replicate count (call, ⟨100, false⟩)
  steps 0 5 ++ steps 1 5 ++ steps 0 3 ++ steps 1 3 ++ steps 3 3 ++ steps 2 12 ++ steps 3 12

/-- The `kid` in the header of the token that a call has returned. -/
def issuedKid? (pool : KeyPool) (call : ℕ) : Option String :=
  match pool.outcome? call with
  | some (.ok (.issued issued)) => some issued.value.header.kid
  | _ => none

theorem keyRing_agrees_sample :
    (issuedKid? (racingKeys.run rotatedWhileIssuing) 3).isSome = true ∧
      AtMostOneActive (racingKeys.run rotatedWhileIssuing).shared.store.db.signingKeys := by
  have empty : ValidRing [] :=
    ⟨List.nodup_nil, List.nodup_nil, fun _ impossible => nomatch impossible⟩
  exact ⟨by decide +kernel, (keyRing_agrees empty rotatedWhileIssuing).1⟩

end AuthStartpack
