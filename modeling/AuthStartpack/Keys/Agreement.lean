import AuthStartpack.Data.Frame
import AuthStartpack.Keys.Ring
import AuthStartpack.Services.Tokens.SignedAccessToken

/-!
Owns the agreement of the key ring with the headers of tokens, in any
interleaving of the operations on signing keys. Every save that changes the ring
is a step of the abstract ring, and a token is returned only if the key that its
header names has signed it.
-/

namespace AuthStartpack

/-- The reported events account for what became of the signing keys. -/
abbrev KeysAccounted (before after : State) : Prop :=
  Accounts RingStep (fun world : World => world.db.signingKeys) before after

/-- Any interleaving. -/
def Law.keyring : Law Input World Event := .concurrent (fun _ _ _ _ => True) KeysAccounted

/-- A step that leaves the ring alone. -/
theorem keysAccounted_of_same {state : State} {call : ℕ} {input : Input} {world : World}
    {events : List Event} (same : world.db.signingKeys = state.store.db.signingKeys)
    (silent : ∀ event ∈ events, ¬ event.ConcernsKeys) :
    KeysAccounted state (state.advance call input (world, events)) := by
  refine Accounts.advance_iff.mpr ?_
  dsimp only
  rw [same]
  exact .stay fun event member => .other (silent event member)

instance : Frames .keyring KeysAccounted Db.signingKeys Event.ConcernsKeys := by
  refine Frames.concurrent Accounts.refl Accounts.trans (fun _ _ => rfl) ?_
  intro state call input world events _ same _ silent
  exact keysAccounted_of_same same silent

namespace KeysAccounted

variable {before after : State}

theorem kept (accounted : KeysAccounted before after) :
    RingKept before.store.db.signingKeys after.store.db.signingKeys := by
  have step : ∀ (ring : List SigningKey) event later, True → RingStep ring event later →
      True ∧ RingKept ring later := fun _ _ _ _ once => ⟨trivial, once.kept⟩
  exact (Accounts.keeps RingKept.refl RingKept.trans step accounted trivial).2

theorem valid (accounted : KeysAccounted before after)
    (holds : ValidRing before.store.db.signingKeys) : ValidRing after.store.db.signingKeys := by
  have step : ∀ (ring : List SigningKey) event later, ValidRing ring → RingStep ring event later →
      ValidRing later ∧ True := fun _ _ _ valid once => ⟨once.valid valid, trivial⟩
  exact (Accounts.keeps (fun _ => trivial) (fun _ _ _ _ _ => trivial) step accounted holds).1

end KeysAccounted

/-- The key, as far as no save changes it, is in the ring. -/
def HoldsKey (key : SigningKey) (state : State) : Prop :=
  ∃ row ∈ state.store.db.signingKeys, key.Same row

theorem HoldsKey.later {key : SigningKey} {before after : State} (holds : HoldsKey key before)
    (accounted : KeysAccounted before after) : HoldsKey key after := by
  obtain ⟨row, member, same⟩ := holds
  obtain ⟨later, laterMember, laterSame, -⟩ := accounted.kept.keys row member
  exact ⟨later, laterMember, same.trans laterSame⟩

/-- What `call` has reported since `start`, and that the ring is accounted for. -/
structure Reported (call : ℕ) (start : State) (events : List Event) (after : State) : Prop where
  accounted : KeysAccounted start after
  events : after.eventsOf call = start.eventsOf call ++ events

namespace Reported

variable {call : ℕ} {first second third : State} {early late : List Event}

theorem refl (state : State) : Reported call state [] state := ⟨.refl state, by simp⟩

theorem trans (before : Reported call first early second)
    (after : Reported call second late third) :
    Reported call first (early ++ late) third :=
  ⟨before.accounted.trans _ _ _ after.accounted, by
    rw [after.events, before.events, List.append_assoc]⟩

/-- Between the steps of a call nothing is reported in its name. -/
theorem calm (call : ℕ) : Calm .keyring call fun before after => Reported call before [] after := by
  have quiet : Calm .keyring call KeysAccounted := inferInstance
  have reporting : Calm .keyring call fun before after =>
      KeysAccounted before after ∧ after.eventsOf call = before.eventsOf call :=
    Calm.reporting call Accounts.refl Accounts.trans fun state input world admitted step =>
      (quiet.quiet state input world admitted step).1
  constructor
  · exact refl
  · intro first second third early late
    exact early.trans late
  · intro before after relied
    obtain ⟨accounted, silent⟩ := reporting.rely before after relied
    exact ⟨accounted, by rw [silent, List.append_nil]⟩
  · intro state input world admitted step
    obtain ⟨kept, accounted, silent⟩ := reporting.quiet state input world admitted step
    exact ⟨kept, accounted, by rw [silent, List.append_nil]⟩

/-- One step of the call, with what it reports. -/
theorem advance {state : State} {input : Input} {outcome : World × List Event}
    (accounted : KeysAccounted state (state.advance call input outcome)) :
    Reported call state outcome.2 (state.advance call input outcome) :=
  ⟨accounted, Shared.eventsOf_advance call state input outcome⟩

end Reported

section Rules

variable {call : ℕ} {state : State} {α : Type}

/-- A step outside the database that reports. -/
theorem wp_reporting (act : Input → World → α × World × List Event)
    {post : Except AppException α → State → Prop}
    (same : ∀ input world, (act input world).2.1.db = world.db)
    (silent : ∀ input world, ∀ event ∈ (act input world).2.2, ¬ event.ConcernsKeys)
    (rest : ∀ current input, Reported call state [] current →
      Reported call state (act input current.store).2.2
        (current.advance call input (act input current.store).2) →
      post (.ok (act input current.store).1)
        (current.advance call input (act input current.store).2)) :
    (Program.atomically fun input world => (.ok (act input world).1, (act input world).2)).wp
      .keyring call post state := by
  intro current relied input _
  have reached := (Reported.calm call).rely _ _ relied
  have kept : KeysAccounted current (current.advance call input (act input current.store).2) := by
    refine keysAccounted_of_same ?_ (silent input current.store)
    rw [same]
  refine ⟨kept, rest current input reached ?_⟩
  exact reached.trans (.advance kept)

/-- A save that is reported, whether it succeeds or not. -/
theorem wp_offer {changes : Instant → Db → Except AppException Db} {demoted : Option SigningKey}
    {offered : SigningKey} {post : Except AppException Unit → State → Prop}
    (step : ∀ current now db, KeysAccounted state current → changes now current.store.db = .ok db →
      RingStep current.store.db.signingKeys (.signingKeyOffered demoted offered) db.signingKeys ∧
        ∃ row ∈ db.signingKeys, offered.Same row)
    (saved : ∀ later, Reported call state [.signingKeyOffered demoted offered] later →
      HoldsKey offered later → post (.ok ()) later)
    (refused : ∀ later exception, Reported call state [.signingKeyOffered demoted offered] later →
      post (.error exception) later) :
    (Action.attemptChanges changes [.signingKeyOffered demoted offered]).wp .keyring call post
      state := by
  refine Action.wp_attemptChanges (Reported.calm call) ?_ ?_
  · intro current input db reached outcome _
    obtain ⟨once, holds⟩ := step current input.now db reached.accounted outcome
    have kept : KeysAccounted current (current.advance call input
        ({ current.store with db }, [.signingKeyOffered demoted offered])) :=
      Accounts.advance_iff.mpr (.single once)
    exact ⟨kept, saved _ (reached.trans (.advance kept)) holds⟩
  · intro current input exception reached _ _
    have kept : KeysAccounted current (current.advance call input
        (current.store, [.signingKeyOffered demoted offered])) :=
      Accounts.advance_iff.mpr (.single .refused)
    exact ⟨kept, refused _ exception (reached.trans (.advance kept))⟩

end Rules

namespace SigningKeyManager

/-! ### The saves -/

/-- An insert into a ring of evolved keys. -/
theorem insertSigningKey_step {ring : List SigningKey} {middle after : Db} {savedAt : Instant}
    {demoted : Option SigningKey} {key : SigningKey} (evolve : SigningKey → SigningKey)
    (rows : middle.signingKeys = ring.map evolve) (evolves : ∀ row ∈ ring, row.Evolves (evolve row))
    (others : ∀ row ∈ ring, (∀ old, demoted = some old → row.id ≠ old.id) → evolve row = row)
    (active : key.status = .active) (saved : middle.insertSigningKey savedAt key = .ok after) :
    RingStep ring (.signingKeyOffered demoted key) after.signingKeys ∧
      ∃ row ∈ after.signingKeys, key.Same row := by
  obtain ⟨⟨freshId, freshKeyId, alone⟩, rfl⟩ := Db.insertSigningKey_eq_ok.mp saved
  rw [rows] at freshId freshKeyId alone
  have added :
      KeyAdded ring
        (middle.signingKeys ++ [{ key with createdAt := savedAt, updatedAt := savedAt }])
      evolve { key with createdAt := savedAt, updatedAt := savedAt } := by
    constructor
    · rw [rows]
    · exact evolves
    · exact fun row member => alone active _ (List.mem_map_of_mem member)
    · exact active
    · intro row member
      rw [← (evolves row member).same.id]
      exact freshId _ (List.mem_map_of_mem member)
    · intro row member
      rw [← (evolves row member).same.keyId]
      exact freshKeyId _ (List.mem_map_of_mem member)
  have same : key.Same { key with createdAt := savedAt, updatedAt := savedAt } :=
    ⟨rfl, rfl, rfl, rfl⟩
  exact ⟨.added evolve _ same added others, _, List.mem_append_right _ List.mem_cons_self, same⟩

theorem addKey_step {db after : Db} {savedAt : Instant} {demoted : Option SigningKey}
    {key : SigningKey}
    (active : key.status = .active) (saved : db.insertSigningKey savedAt key = .ok after) :
    RingStep db.signingKeys (.signingKeyOffered demoted key) after.signingKeys ∧
      ∃ row ∈ after.signingKeys, key.Same row := by
  refine insertSigningKey_step id (List.map_id _).symm ?_ (fun _ _ _ => rfl) active saved
  exact fun row _ => ⟨.refl row, .stays _⟩

/-- Where an active key is known to remain, only an active key is demoted: otherwise the database
refuses the second active key. -/
theorem replaceKey_step {current : Option SigningKey} {replacement : SigningKey}
    {now savedAt : Instant} {db after : Db} (valid : ValidRing db.signingKeys)
    (present : ∀ key, current = some key →
      key.status = .active ∧ ∃ row ∈ db.signingKeys, row.status = .active)
    (active : replacement.status = .active)
    (saved : replaceKey current replacement now savedAt db = .ok after) :
    RingStep db.signingKeys (.signingKeyOffered current replacement) after.signingKeys ∧
      ∃ row ∈ after.signingKeys, replacement.Same row := by
  cases current with
  | none => exact addKey_step active saved
  | some key =>
  obtain ⟨keyActive, signer, signerMember, signerActive⟩ := present key rfl
  obtain ⟨middle, updated, inserted⟩ := bind_eq_ok.mp saved
  obtain ⟨-, rfl⟩ := Db.updateSigningKey_eq_ok.mp updated
  refine insertSigningKey_step _ rfl ?evolves ?others active inserted
  case others =>
    intro row member other
    have different : row.id ≠ key.id := other key rfl
    simp [different]
  intro row member
  split
  case isFalse => exact ⟨.refl row, .stays _⟩
  case isTrue hit =>
    simp only [Bool.and_eq_true, decide_eq_true_eq] at hit
    refine ⟨⟨rfl, rfl, rfl, rfl⟩, ?_⟩
    have demotes :
        (key.merge { key with status := .retiring, retiringAt := some now } savedAt row).status =
        .retiring := by
      simp [SigningKey.merge, changed, keyActive]
    rw [demotes]
    cases status : row.status with
    | active => exact .demoted
    | retiring => exact .stays _
    | retired =>
        -- The active key is another one, and is still active when the insert is checked.
        have other : signer.id ≠ key.id := by
          intro same
          have equal := Table.Keyed.eq_of_key valid.ids signerMember member (same.trans hit.1.symm)
          rw [equal, status] at signerActive
          cases signerActive
        have alone := (Db.insertSigningKey_eq_ok.mp inserted).1.2.2 active
        refine absurd signerActive (alone signer ?_)
        refine List.mem_map.mpr ⟨signer, signerMember, ?_⟩
        simp [other]

/-- What retiring elapsed keys may do to a key. -/
structure Retirement (before after : SigningKey) : Prop where
  same : before.Same after
  status : after.status = before.status ∨ before.status = .retiring ∧ after.status = .retired

theorem Retirement.evolves {before after : SigningKey} (retirement : Retirement before after) :
    before.Evolves after := by
  refine ⟨retirement.same, ?_⟩
  rcases retirement.status with stays | ⟨retiring, retired⟩
  · rw [stays]
    exact .stays _
  · rw [retiring, retired]
    exact .retired

theorem Retirement.trans {first second third : SigningKey} (early : Retirement first second)
    (late : Retirement second third) : Retirement first third := by
  refine ⟨early.same.trans late.same, ?_⟩
  rcases early.status with stays | ⟨retiring, retired⟩
  · rw [← stays]
    exact late.status
  · rcases late.status with stays | ⟨again, -⟩
    · exact .inr ⟨retiring, stays.trans retired⟩
    · rw [retired] at again
      cases again

/-- The row as read was demoted, and the row to write is that row, retired. -/
def Retires (row : SigningKey × SigningKey) : Prop :=
  row.1.status = .retiring ∧ ∃ now, row.2 = { row.1 with status := .retired, retiredAt := some now }

/-- One update of a demoted key. -/
theorem Retires.updateSigningKey {row : SigningKey × SigningKey} {db after : Db} {savedAt : Instant}
    (retires : Retires row)
    (demoted : ∀ stored ∈ db.signingKeys, stored.id = row.1.id → stored.status ≠ .active)
    (saved : db.updateSigningKey savedAt row.1 row.2 = .ok after) :
    ∃ evolve, after.signingKeys = db.signingKeys.map evolve ∧
      ∀ stored ∈ db.signingKeys, Retirement stored (evolve stored) := by
  obtain ⟨retiring, now, equal⟩ := retires
  obtain ⟨-, rfl⟩ := Db.updateSigningKey_eq_ok.mp saved
  refine ⟨_, rfl, ?_⟩
  intro stored member
  split
  case isFalse => exact ⟨.refl stored, .inl rfl⟩
  case isTrue hit =>
    simp only [Bool.and_eq_true, decide_eq_true_eq] at hit
    refine ⟨⟨rfl, rfl, rfl, rfl⟩, ?_⟩
    have retired : (row.1.merge row.2 savedAt stored).status = .retired := by
      simp [SigningKey.merge, changed, equal, retiring]
    rw [retired]
    cases status : stored.status with
    | active => exact absurd status (demoted stored member hit.1)
    | retiring => exact .inr ⟨rfl, rfl⟩
    | retired => exact .inl rfl

/-- The save retires keys that were demoted, and no other. -/
theorem updateKeys_retires {rows : List (SigningKey × SigningKey)} {db after : Db}
    {savedAt : Instant}
    (retires : ∀ row ∈ rows, Retires row)
    (demoted : ∀ row ∈ rows, ∀ stored ∈ db.signingKeys, stored.id = row.1.id →
      stored.status ≠ .active)
    (saved : updateKeys rows savedAt db = .ok after) :
    ∃ evolve, after.signingKeys = db.signingKeys.map evolve ∧
      ∀ stored ∈ db.signingKeys, Retirement stored (evolve stored) := by
  induction rows generalizing db with
  | nil =>
      cases saved
      exact ⟨id, (List.map_id _).symm, fun stored _ => ⟨.refl stored, .inl rfl⟩⟩
  | cons head tail inductionHypothesis =>
      rw [updateKeys, List.foldlM_cons] at saved
      obtain ⟨middle, first, rest⟩ := bind_eq_ok.mp saved
      obtain ⟨early, middleRows, earlyRetires⟩ := (retires head List.mem_cons_self).updateSigningKey
        (demoted head List.mem_cons_self) first
      have stillDemoted : ∀ row ∈ tail, ∀ stored ∈ middle.signingKeys, stored.id = row.1.id →
          stored.status ≠ .active := by
        intro row member stored storedMember same active
        rw [middleRows] at storedMember
        obtain ⟨old, oldMember, rfl⟩ := List.mem_map.mp storedMember
        have retirement := earlyRetires old oldMember
        rw [retirement.same.id] at same
        have wasNot := demoted row (List.mem_cons_of_mem _ member) old oldMember same
        rcases retirement.status with stays | ⟨-, retired⟩
        · exact wasNot (stays ▸ active)
        · rw [retired] at active
          cases active
      obtain ⟨late, afterRows, lateRetires⟩ := inductionHypothesis
        (fun row member => retires row (List.mem_cons_of_mem _ member)) stillDemoted rest
      refine ⟨late ∘ early, by rw [afterRows, middleRows, List.map_map], ?_⟩
      intro stored member
      refine (earlyRetires stored member).trans (lateRetires _ ?_)
      rw [middleRows]
      exact List.mem_map_of_mem member

theorem updateKeys_step {rows : List (SigningKey × SigningKey)} {db after : Db} {savedAt : Instant}
    {keys : List SigningKey} (retires : ∀ row ∈ rows, Retires row)
    (demoted : ∀ row ∈ rows, ∀ stored ∈ db.signingKeys, stored.id = row.1.id →
      stored.status ≠ .active)
    (saved : updateKeys rows savedAt db = .ok after) :
    RingStep db.signingKeys (.signingKeysRetired keys) after.signingKeys := by
  obtain ⟨evolve, rows, retirement⟩ := updateKeys_retires retires demoted saved
  rw [rows]
  refine .retired evolve (fun row member => (retirement row member).evolves) ?_
  intro row member active
  rcases (retirement row member).status with stays | ⟨retiring, -⟩
  · exact stays.trans active
  · rw [active] at retiring
    cases retiring

/-! ### The operations -/

section Operations

variable {services : Services} {http : HttpContext} {call : ℕ} {start : State}

/-- A new key is active. -/
theorem wp_createKey {now : Instant} {post : Except AppException SigningKey → State → Prop}
    (rest : ∀ key later, key.status = .active → Reported call start [] later →
      post (.ok key) later) :
    (createKey services now).wp .keyring call post start := by
  simp only [createKey, Program.wp_bind]
  refine Action.calm_draw (Reported.calm call) ?_
  intro _ pair before drewPair _
  rw [Program.andThen_ok, Program.wp_bind]
  refine Action.calm_draw (Reported.calm call) ?_
  intro _ nonce between drewNonce _
  rw [Program.andThen_ok, Program.wp_bind]
  refine Action.calm_draw (Reported.calm call) ?_
  intro _ id waits drewId _
  exact rest _ id rfl
    (((((before.trans drewPair).trans between).trans drewNonce).trans waits).trans drewId)

/-- Events of a call that offers at most one key, and signs nothing. -/
structure Offers (events : List Event) : Prop where
  once : events.length ≤ 1
  unsigned : ∀ keyId, .payloadSigned keyId ∉ events

theorem Offers.nil : Offers [] := ⟨Nat.zero_le 1, fun _ => List.not_mem_nil⟩

theorem Offers.single (demoted : Option SigningKey) (offered : SigningKey) :
    Offers [.signingKeyOffered demoted offered] :=
  ⟨Nat.le_refl 1, fun _ member => nomatch List.mem_singleton.mp member⟩

/-- An operation that offers at most one key, and returns what is in the ring. -/
def OffersKey (call : ℕ) (start : State) (outcome : Except AppException SigningKey)
    (after : State) :
    Prop :=
  (∃ events, Offers events ∧ Reported call start events after) ∧
    ∀ key, outcome = .ok key → HoldsKey key after

/-- A key that a query found. -/
theorem holdsKey_of_active {key : SigningKey} {state : State}
    (member : key ∈ activeKeys state.store.db) :
    HoldsKey key state :=
  ⟨key, (List.mem_filter.mp member).1, .refl key⟩

theorem getOrCreateActiveKeyAsync_offers :
    (getOrCreateActiveKeyAsync services).wp .keyring call (OffersKey call start) start := by
  simp only [getOrCreateActiveKeyAsync, Program.wp_bind]
  refine Action.calm_queryOrThrow (Reported.calm call) ?_
  intro seen see
  cases found : Action.singleOrDefault (activeKeys seen.store.db) with
  | error exception => exact ⟨⟨[], .nil, see⟩, by rintro _ ⟨⟩⟩
  | ok active =>
  cases active with
  | some key =>
      refine ⟨⟨[], .nil, see⟩, ?_⟩
      rintro _ ⟨⟩
      exact holdsKey_of_active (Action.mem_of_singleOrDefault_rows found)
  | none =>
  rw [Program.andThen_ok, Program.wp_bind]
  refine Action.calm_utcNow (Reported.calm call) ?_
  intro read reading
  have reached := see.trans reading
  rw [Program.andThen_ok, Program.wp_bind]
  refine wp_createKey ?_
  intro created made active make
  have known := reached.trans make
  rw [Program.andThen_ok, Program.wp_bind, Program.wp_tryCatch, Program.wp_bind]
  have adds : ∀ current now db, KeysAccounted made current →
      current.store.db.insertSigningKey now created = .ok db →
      RingStep current.store.db.signingKeys (.signingKeyOffered none created) db.signingKeys ∧
        ∃ row ∈ db.signingKeys, created.Same row := by
    intro current now db _ saved
    exact addKey_step active saved
  refine wp_offer adds ?_ ?_
  · intro later offered holds
    refine ⟨⟨_, .single none created, known.trans offered⟩, ?_⟩
    rintro _ ⟨⟩
    exact holds
  · intro lost exception offered
    have events := known.trans offered
    rw [Program.andThen_error]
    dsimp only
    split
    case isFalse => exact ⟨⟨_, .single none created, events⟩, by rintro _ ⟨⟩⟩
    case isTrue =>
      rw [Program.wp_pure, Program.andThen_ok, if_neg (by decide)]
      refine Action.calm_queryOrThrow (Reported.calm call) ?_
      intro again reread
      refine ⟨⟨_, .single none created, events.trans reread⟩, ?_⟩
      intro key winner
      have only := Action.single_eq_ok.mp winner
      exact holdsKey_of_active (only ▸ List.mem_cons_self)

/-- An operation that returns a `kid`. -/
def OffersKeyId (call : ℕ) (start : State) (outcome : Except AppException String) (after : State) :
    Prop :=
  (∃ events, Offers events ∧ Reported call start events after) ∧
    ∀ keyId, outcome = .ok keyId → ∃ key ∈ after.store.db.signingKeys, key.keyId = keyId

theorem getActiveKeyIdAsync_offers :
    (getActiveKeyIdAsync services).wp .keyring call (OffersKeyId call start) start := by
  refine Program.wp_bind_of getOrCreateActiveKeyAsync_offers ?_ ?_
  · rintro key after ⟨offers, holds⟩
    obtain ⟨row, member, same⟩ := holds key rfl
    refine ⟨offers, ?_⟩
    rintro _ ⟨⟩
    exact ⟨row, member, same.keyId⟩
  · rintro exception after ⟨offers, -⟩
    exact ⟨offers, fun _ impossible => nomatch impossible⟩

theorem rotateAsync_offers (valid : ValidRing start.store.db.signingKeys) :
    (rotateAsync services http).wp .keyring call (OffersKeyId call start) start := by
  simp only [rotateAsync, Program.wp_bind]
  refine Action.calm_utcNow (Reported.calm call) ?_
  intro read reading
  rw [Program.andThen_ok, Program.wp_bind]
  refine Action.calm_queryOrThrow (Reported.calm call) ?_
  intro seen see
  have reached := reading.trans see
  cases found : Action.singleOrDefault (activeKeys seen.store.db) with
  | error exception => exact ⟨⟨[], .nil, reached⟩, by rintro _ ⟨⟩⟩
  | ok current =>
  rw [Program.andThen_ok, Program.wp_bind]
  refine wp_createKey ?_
  intro replacement made active make
  have known := reached.trans make
  rw [Program.andThen_ok, Program.wp_bind]
  have replaces : ∀ later savedAt db, KeysAccounted made later →
      replaceKey current replacement read.last.now savedAt later.store.db = .ok db →
      RingStep later.store.db.signingKeys (.signingKeyOffered current replacement) db.signingKeys ∧
        ∃ row ∈ db.signingKeys, replacement.Same row := by
    intro later savedAt db accounted saved
    have since : KeysAccounted seen later := make.accounted.trans _ _ _ accounted
    refine replaceKey_step (since.valid (reached.accounted.valid valid)) ?_ active saved
    rintro key rfl
    have member := Action.mem_of_singleOrDefault_rows found
    obtain ⟨stored, isActive⟩ := List.mem_filter.mp member
    have keyActive : key.status = .active := by simpa using isActive
    exact ⟨keyActive, since.kept.active ⟨key, stored, keyActive⟩⟩
  refine wp_offer replaces ?_ ?_
  · intro saved offered holds
    have events := known.trans offered
    rw [Program.andThen_ok, Program.wp_bind]
    refine AuditLogger.wp_logAsync (Reported.calm call) ?_
    intro later logged
    obtain ⟨row, member, same⟩ := holds.later logged.accounted
    refine ⟨⟨_, .single current replacement, events.trans logged⟩, ?_⟩
    rintro _ ⟨⟩
    exact ⟨row, member, same.keyId⟩
  · intro later exception offered
    exact ⟨⟨_, .single current replacement, known.trans offered⟩, by rintro _ ⟨⟩⟩

theorem retireKeys_retires {keys : List SigningKey}
    (demoted : ∀ key ∈ keys, key.status = .retiring) :
    (retireKeys keys).wp .keyring call (fun outcome after => Reported call start [] after ∧
      ∀ rows, outcome = .ok rows → ∀ row ∈ rows, row.1 ∈ keys ∧ Retires row) start := by
  induction keys generalizing start with
  | nil =>
      refine ⟨.refl start, ?_⟩
      rintro _ ⟨⟩ row member
      cases member
  | cons key rest inductionHypothesis =>
      simp only [retireKeys, Program.wp_bind]
      refine Action.calm_utcNow (Reported.calm call) ?_
      intro read reading
      rw [Program.andThen_ok]
      refine Program.wp_bind_of
        (inductionHypothesis fun key member => demoted key (List.mem_cons_of_mem _ member)) ?_ ?_
      · rintro rows after ⟨reached, retires⟩
        refine ⟨reading.trans reached, ?_⟩
        rintro _ ⟨⟩ row member
        rcases List.mem_cons.mp member with rfl | inRest
        · exact ⟨List.mem_cons_self, demoted key List.mem_cons_self, _, rfl⟩
        · obtain ⟨known, retired⟩ := retires rows rfl row inRest
          exact ⟨List.mem_cons_of_mem _ known, retired⟩
      · rintro exception after ⟨reached, -⟩
        exact ⟨reading.trans reached, by rintro _ ⟨⟩⟩

omit services in
theorem removeKeys_keeps (services : Services) (process : ℕ) (keys : List SigningKey) :
    Keeps .keyring KeysAccounted (removeKeys services process keys) := by
  have access : ∀ write : Caches → Caches,
      Keeps .keyring KeysAccounted (Action.updateCaches write) := by
    intro write call start
    refine wp_reporting (fun _ world => ((), { world with caches := write world.caches }, []))
      (fun _ _ => rfl) ?_ ?_
    · intro input world event member
      cases member
    · intro current input result reported
      exact reported.accounted
  induction keys with
  | nil => exact .pure ()
  | cons key rest inductionHypothesis =>
      refine .bind (.bind (access _) fun _ => ?_) fun _ => inductionHypothesis
      exact .ite (access _) (.pure ())

theorem retireElapsedKeysAsync_accounted {process : ℕ}
    (valid : ValidRing start.store.db.signingKeys) :
    (retireElapsedKeysAsync services process).wp .keyring call
      (fun _ after => KeysAccounted start after) start := by
  simp only [retireElapsedKeysAsync, Program.wp_bind]
  refine Action.calm_utcNow (Reported.calm call) ?_
  intro read reading
  rw [Program.andThen_ok, Program.wp_bind]
  refine Action.calm_query (Reported.calm call) ?_
  intro seen see
  have reached := reading.trans see
  rw [Program.andThen_ok]
  generalize listed : seen.store.db.signingKeys.filter
    (elapsed (read.last.now - services.jwtOptions.keyRetirementGrace)) = keys
  have stored : ∀ key ∈ keys, key ∈ seen.store.db.signingKeys ∧ key.status = .retiring := by
    intro key member
    rw [← listed] at member
    obtain ⟨inRing, isElapsed⟩ := List.mem_filter.mp member
    simp only [elapsed, Bool.and_eq_true, decide_eq_true_eq] at isElapsed
    exact ⟨inRing, isElapsed.1⟩
  refine Program.wp_bind_of (retireKeys_retires fun key member => (stored key member).2) ?_ ?_
  case refine_2 => exact fun _ _ ended => (reached.trans ended.1).accounted
  rintro rows prepared ⟨prepare, retires⟩
  have ready := (reached.trans prepare).accounted
  split
  case isFalse => exact ready
  case isTrue =>
  rw [Program.wp_bind]
  have calm : Calm .keyring call KeysAccounted := inferInstance
  refine Action.wp_saveChanges calm ?_ ?_
  · intro current input db since saved _
    have known : KeysAccounted start current := ready.trans _ _ _ since
    have later : KeysAccounted seen current := prepare.accounted.trans _ _ _ since
    have demoted : ∀ row ∈ rows, ∀ other ∈ current.store.db.signingKeys, other.id = row.1.id →
        other.status ≠ .active := by
      intro row member other otherMember same active
      obtain ⟨inRing, retiring⟩ := stored row.1 (retires rows rfl row member).1
      obtain ⟨kept, keptMember, continues⟩ := later.kept.keys row.1 inRing
      have equal := Table.Keyed.eq_of_key (known.valid valid).ids otherMember keptMember
        (same.trans continues.same.id.symm)
      have rank := continues.rank
      rw [← equal, active, retiring] at rank
      exact absurd rank (by decide)
    have step : RingStep current.store.db.signingKeys (.signingKeysRetired keys) db.signingKeys :=
      updateKeys_step (fun row member => (retires rows rfl row member).2) demoted saved
    have kept : KeysAccounted current (current.advance call input
        ({ current.store with db }, [.signingKeysRetired keys])) :=
      Accounts.advance_iff.mpr (.single step)
    refine ⟨kept, ?_⟩
    have removes : Keeps .keyring KeysAccounted
        (removeKeys services process keys >>= fun _ => (pure keys.length : Action ℕ)) :=
      .bind (removeKeys_keeps services process keys) fun _ => .pure _
    exact removes.after (known.trans _ _ _ kept)
  · intro current later exception now since waits _
    have known : KeysAccounted start current := ready.trans _ _ _ since
    exact known.trans _ _ _ waits

end Operations

end SigningKeyManager

end AuthStartpack
