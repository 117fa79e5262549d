import AuthStartpack.Configuration.Validation.JwtOptionsValidator
import AuthStartpack.Handlers.ConfigureJwtBearerOptions
import AuthStartpack.Keys.Aging
import AuthStartpack.Keys.Interleavings

/-!
Owns the lifetimes of access tokens and signing keys together. A token expires
by its own claims, and its key is retired by the clock of another call: in any
interleaving under a clock that goes on, the key of an issued token is there as
long as the token is accepted, but for the delay with which demotions are saved.
-/

namespace AuthStartpack

/-- The demotion of a key is saved soon after the rotation has read the clock. -/
def Event.Prompt (allowance savedAt : ℤ) : Event → Prop
  | .signingKeyOffered (some _) replacement => savedAt ≤ replacement.activatedAt + allowance
  | _ => True

instance (allowance savedAt : ℤ) (event : Event) : Decidable (event.Prompt allowance savedAt) := by
  unfold Event.Prompt
  split <;> infer_instance

/-- The clock does not go back, and rotations are prompt. -/
structure Promptly (allowance : ℤ) (state : State) (call : ℕ) (input : Input)
    (events : List Event) :
    Prop where
  clock : state.last.now ≤ input.now
  prompt : ∀ event ∈ events, event.Prompt allowance input.now

instance (allowance : ℤ) (state : State) (call : ℕ) (input : Input) (events : List Event) :
    Decidable (Promptly allowance state call input events) :=
  decidable_of_iff (state.last.now ≤ input.now ∧ ∀ event ∈ events, event.Prompt allowance input.now)
    ⟨fun ⟨clock, prompt⟩ => ⟨clock, prompt⟩, fun ⟨clock, prompt⟩ => ⟨clock, prompt⟩⟩

/-- The ring has grown older. -/
structure RingAges (grace allowance : ℤ) (before after : State) : Prop where
  clock : before.last.now ≤ after.last.now
  accounted : KeysAccounted before after
  keys : ∀ key ∈ before.store.db.signingKeys, ∃ later ∈ after.store.db.signingKeys,
    key.Ages grace allowance before.last.now after.last.now later

namespace RingAges

variable {grace allowance : ℤ}

theorem refl (state : State) : RingAges grace allowance state state where
  clock := Int.le_refl _
  accounted := .refl state
  keys key member := ⟨key, member, .refl key⟩

theorem trans (first second third : State) (early : RingAges grace allowance first second)
    (late : RingAges grace allowance second third) : RingAges grace allowance first third where
  clock := Int.le_trans early.clock late.clock
  accounted := early.accounted.trans _ _ _ late.accounted
  keys key member := by
    obtain ⟨middle, middleMember, ages⟩ := early.keys key member
    obtain ⟨later, laterMember, agesMore⟩ := late.keys middle middleMember
    exact ⟨later, laterMember, ages.trans agesMore early.clock late.clock⟩

end RingAges

def Law.ageing (grace allowance : ℤ) : Law Input World Event :=
  .concurrent (Promptly allowance) (RingAges grace allowance)

instance (grace allowance : ℤ) :
    Frames (.ageing grace allowance)
      (RingAges grace allowance) Db.signingKeys Event.ConcernsKeys := by
  refine Frames.concurrent .refl .trans (fun _ _ => rfl) ?_
  intro state call input world events admitted same _ silent
  refine ⟨admitted.clock, keysAccounted_of_same same silent, ?_⟩
  intro key member
  refine ⟨key, ?_, .refl key⟩
  rw [Shared.advance_store, same]
  exact member

/-- A key with this `kid` serves. -/
def ServesKeyId (grace allowance : ℤ) (since : ℤ) (keyId : String) (state : State) : Prop :=
  ∃ key ∈ state.store.db.signingKeys, key.keyId = keyId ∧
    key.Serves grace allowance since state.last.now

theorem ServesKeyId.later {grace allowance since : ℤ} {keyId : String} {before after : State}
    (serves : ServesKeyId grace allowance since keyId before) (begun : since ≤ before.last.now)
    (ages : RingAges grace allowance before after) :
    ServesKeyId grace allowance since keyId after := by
  obtain ⟨key, member, named, good⟩ := serves
  obtain ⟨later, laterMember, older⟩ := ages.keys key member
  exact ⟨later, laterMember, older.continues.same.keyId.trans named,
    older.serves good begun ages.clock⟩

namespace SigningKeyManager

variable {grace allowance : ℤ}

/-! ### The saves -/

/-- The save of a new key. -/
theorem addKey_ages {db after : Db} {savedAt earlier later : Instant} {key : SigningKey}
    (saved : db.insertSigningKey savedAt key = .ok after) :
    ∀ row ∈ db.signingKeys, ∃ aged ∈ after.signingKeys,
      row.Ages grace allowance earlier later aged := by
  obtain ⟨-, rfl⟩ := Db.insertSigningKey_eq_ok.mp saved
  exact fun row member => ⟨row, List.mem_append_left _ member, .refl row⟩

/-- A rotation demotes a key that is still active, at the instant that it has read. -/
theorem replaceKey_ages {current : Option SigningKey} {replacement : SigningKey}
    {now savedAt earlier later : ℤ} {db after : Db} (valid : ValidRing db.signingKeys)
    (present : ∀ key, current = some key → key.status = .active ∧
      ∃ row ∈ db.signingKeys, row.status = .active)
    (unchanged : ∀ key, current = some key → ∀ row ∈ db.signingKeys, row.id = key.id →
      row.status = .active → row.retiringAt = key.retiringAt)
    (active : replacement.status = .active) (prompt : current.isSome → earlier ≤ now + allowance)
    (saved : replaceKey current replacement now savedAt db = .ok after) :
    ∀ row ∈ db.signingKeys, ∃ aged ∈ after.signingKeys,
      row.Ages grace allowance earlier later aged := by
  cases current with
  | none => exact addKey_ages saved
  | some key =>
  obtain ⟨keyActive, signer, signerMember, signerActive⟩ := present key rfl
  obtain ⟨middle, updated, inserted⟩ := bind_eq_ok.mp saved
  obtain ⟨-, rfl⟩ := Db.updateSigningKey_eq_ok.mp updated
  obtain ⟨⟨-, -, alone⟩, rfl⟩ := Db.insertSigningKey_eq_ok.mp inserted
  intro row member
  refine ⟨_, List.mem_append_left _ (List.mem_map_of_mem member), ?_⟩
  split
  case isFalse => exact .refl row
  case isTrue hit =>
    simp only [Bool.and_eq_true, decide_eq_true_eq] at hit
    -- The insert is refused unless the demoted row was the active one.
    have rowActive : row.status = .active := by
      by_cases same : signer.id = key.id
      · have equal := Table.Keyed.eq_of_key valid.ids signerMember member (same.trans hit.1.symm)
        exact equal ▸ signerActive
      · refine absurd signerActive
          (alone active signer (List.mem_map.mpr ⟨signer, signerMember, ?_⟩))
        simp [same]
    have demotes :
        (key.merge { key with status := .retiring, retiringAt := some now } savedAt row).status =
        .retiring := by
      simp [SigningKey.merge, changed, keyActive]
    have records : (key.merge { key with status := .retiring, retiringAt := some now } savedAt
        row).retiringAt = some now := by
      simp only [SigningKey.merge, changed]
      split
      · rename_i same
        rw [unchanged key rfl row member hit.1 rowActive, same]
      · rfl
    constructor
    case continues =>
      refine ⟨⟨rfl, rfl, rfl, rfl⟩, ?_⟩
      rw [demotes, rowActive]
      decide
    case stays =>
      intro same
      rw [demotes, rowActive] at same
      cases same
    case demoted => exact fun _ _ => ⟨now, records, prompt rfl⟩
    case elapsed =>
      intro retiring
      rw [rowActive] at retiring
      cases retiring
    case served =>
      intro _ retired
      rw [demotes] at retired
      cases retired

/-- The row to retire was demoted long enough ago, and is the stored one as far as that goes. -/
def Elapsed (grace later : ℤ) (db : Db) (row : SigningKey × SigningKey) : Prop :=
  ∀ stored ∈ db.signingKeys, stored.id = row.1.id → stored.status ≠ .active ∧
    (stored.status = .retiring →
      ∃ demotedAt : ℤ, stored.retiringAt = some demotedAt ∧ demotedAt + grace ≤ later)

/-- One update of a demoted key. -/
theorem updateSigningKey_ages {row : SigningKey × SigningKey} {db after : Db} {savedAt later : ℤ}
    (retires : Retires row) (elapsed : Elapsed grace later db row)
    (saved : db.updateSigningKey savedAt row.1 row.2 = .ok after) :
    ∃ evolve, after.signingKeys = db.signingKeys.map evolve ∧
      ∀ stored ∈ db.signingKeys, stored.Ages grace allowance later later (evolve stored) := by
  obtain ⟨retiring, now, equal⟩ := retires
  obtain ⟨-, rfl⟩ := Db.updateSigningKey_eq_ok.mp saved
  refine ⟨_, rfl, ?_⟩
  intro stored member
  split
  case isFalse => exact .refl stored
  case isTrue hit =>
    simp only [Bool.and_eq_true, decide_eq_true_eq] at hit
    obtain ⟨notActive, long⟩ := elapsed stored member hit.1
    have retired : (row.1.merge row.2 savedAt stored).status = .retired := by
      simp [SigningKey.merge, changed, equal, retiring]
    have recorded : (row.1.merge row.2 savedAt stored).retiringAt = stored.retiringAt := by
      simp [SigningKey.merge, equal]
    constructor
    case continues =>
      refine ⟨⟨rfl, rfl, rfl, rfl⟩, ?_⟩
      rw [retired]
      cases stored.status <;> decide
    case stays => exact fun _ => recorded
    case demoted => exact fun active _ => absurd active notActive
    case elapsed => exact fun retiring _ => long retiring
    case served => exact fun active _ => absurd active notActive

/-- The save retires keys that were demoted long enough ago. -/
theorem updateKeys_ages {rows : List (SigningKey × SigningKey)} {db after : Db} {savedAt later : ℤ}
    (retires : ∀ row ∈ rows, Retires row) (elapsed : ∀ row ∈ rows, Elapsed grace later db row)
    (saved : updateKeys rows savedAt db = .ok after) :
    ∀ stored ∈ db.signingKeys, ∃ aged ∈ after.signingKeys,
      stored.Ages grace allowance later later aged := by
  induction rows generalizing db with
  | nil =>
      cases saved
      exact fun stored member => ⟨stored, member, .refl stored⟩
  | cons head tail inductionHypothesis =>
      rw [updateKeys, List.foldlM_cons] at saved
      obtain ⟨middle, first, rest⟩ := bind_eq_ok.mp saved
      obtain ⟨evolve, middleRows, ages⟩ :=
        @updateSigningKey_ages grace allowance head db middle savedAt
        later (retires head List.mem_cons_self) (elapsed head List.mem_cons_self) first
      have stillElapsed : ∀ row ∈ tail, Elapsed grace later middle row := by
        intro row member stored storedMember same
        rw [middleRows] at storedMember
        obtain ⟨old, oldMember, rfl⟩ := List.mem_map.mp storedMember
        have aged := ages old oldMember
        rw [aged.continues.same.id] at same
        obtain ⟨notActive, long⟩ := elapsed row (List.mem_cons_of_mem _ member) old oldMember same
        have rank := aged.continues.rank
        constructor
        · intro active
          rw [active] at rank
          exact notActive (SigningKeyStatus.rank_eq_zero (Nat.le_zero.mp rank))
        · intro retiring
          have wasRetiring : old.status = .retiring := by
            cases status : old.status with
            | active => exact absurd status notActive
            | retiring => rfl
            | retired =>
                rw [status, retiring] at rank
                exact absurd rank (by decide)
          obtain ⟨demotedAt, recorded, elapsedSince⟩ := long wasRetiring
          exact ⟨demotedAt, (aged.stays (retiring.trans wasRetiring.symm)).trans recorded,
            elapsedSince⟩
      intro stored member
      obtain ⟨aged, agedMember, agesMore⟩ := inductionHypothesis
        (fun row member => retires row (List.mem_cons_of_mem _ member)) stillElapsed rest
          (evolve stored)
        (middleRows ▸ List.mem_map_of_mem member)
      exact ⟨aged, agedMember, (ages stored member).trans agesMore (Int.le_refl _) (Int.le_refl _)⟩

/-! ### The operations -/

section Operations

variable {services : Services} {http : HttpContext} {call : ℕ} {start : State}

/-- A new key is active, from the instant that its creator has read. -/
theorem calm_createKey {law : Law Input World Event} {K : State → State → Prop}
    (calm : Calm law call K) {now : Instant} {post : Except AppException SigningKey → State → Prop}
    (rest : ∀ key later, key.status = .active → key.activatedAt = now → K start later →
      post (.ok key) later) :
    (createKey services now).wp law call post start := by
  simp only [createKey, Program.wp_bind]
  refine Action.calm_draw calm ?_
  intro _ pair before drewPair _
  rw [Program.andThen_ok, Program.wp_bind]
  refine Action.calm_draw calm ?_
  intro _ nonce between drewNonce _
  rw [Program.andThen_ok, Program.wp_bind]
  refine Action.calm_draw calm ?_
  intro _ id waits drewId _
  have first := calm.trans _ _ _ before drewPair
  have second := calm.trans _ _ _ (calm.trans _ _ _ first between) drewNonce
  exact rest _ id rfl rfl (calm.trans _ _ _ (calm.trans _ _ _ second waits) drewId)

/-- What a save that offers a key must do to the ring. -/
structure Offered (grace allowance : ℤ) (demoted : Option SigningKey) (offered : SigningKey)
    (earlier later : Instant) (before after : Db) : Prop where
  step : RingStep before.signingKeys (.signingKeyOffered demoted offered) after.signingKeys
  ages : ∀ row ∈ before.signingKeys, ∃ aged ∈ after.signingKeys,
    row.Ages grace allowance earlier later aged
  added : ∃ row ∈ after.signingKeys, row.keyId = offered.keyId ∧ row.status = .active

theorem offered_of_insert {db after : Db} {savedAt earlier later : Instant} {key : SigningKey}
    (active : key.status = .active) (saved : db.insertSigningKey savedAt key = .ok after) :
    Offered grace allowance none key earlier later db after := by
  refine ⟨(addKey_step active saved).1, addKey_ages saved, ?_⟩
  obtain ⟨-, rfl⟩ := Db.insertSigningKey_eq_ok.mp saved
  exact ⟨_, List.mem_append_right _ List.mem_cons_self, rfl, active⟩

/-- A save that offers a key, whether it succeeds or not. -/
theorem wp_offer_ages {changes : Instant → Db → Except AppException Db}
    {demoted : Option SigningKey}
    {offered : SigningKey} {post : Except AppException Unit → State → Prop}
    (step : ∀ current input db, RingAges grace allowance start current →
      Promptly allowance current call input [.signingKeyOffered demoted offered] →
      changes input.now current.store.db = .ok db →
      Offered grace allowance demoted offered current.last.now input.now current.store.db db)
    (saved : ∀ later, RingAges grace allowance start later →
      (∃ row ∈ later.store.db.signingKeys, row.keyId = offered.keyId ∧ row.status = .active) →
      post (.ok ()) later)
    (refused : ∀ later exception, RingAges grace allowance start later →
      post (.error exception) later) :
    (Action.attemptChanges changes [.signingKeyOffered demoted offered]).wp
      (.ageing grace allowance)
      call post start := by
  have calm : Calm (.ageing grace allowance) call (RingAges grace allowance) := inferInstance
  refine Action.wp_attemptChanges calm ?_ ?_
  · intro current input db reached outcome admitted
    obtain ⟨once, ages, added⟩ := step current input db reached admitted outcome
    have kept : RingAges grace allowance current (current.advance call input
        ({ current.store with db }, [.signingKeyOffered demoted offered])) :=
      ⟨admitted.clock, Accounts.advance_iff.mpr (.single once), ages⟩
    exact ⟨kept, saved _ (reached.trans _ _ _ kept) added⟩
  · intro current input exception reached _ admitted
    have kept : RingAges grace allowance current (current.advance call input
        (current.store, [.signingKeyOffered demoted offered])) := by
      refine ⟨admitted.clock, Accounts.advance_iff.mpr (.single .refused), ?_⟩
      exact fun key member => ⟨key, member, .refl key⟩
    exact ⟨kept, refused _ exception (reached.trans _ _ _ kept)⟩

/-- An operation that returns a key which serves from the beginning of the operation. -/
def ReturnsServing (grace allowance : ℤ) (start : State) (outcome : Except AppException SigningKey)
    (after : State) : Prop :=
  RingAges grace allowance start after ∧
    ∀ key, outcome = .ok key → ServesKeyId grace allowance start.last.now key.keyId after

/-- The key that a query found active. -/
theorem serves_of_active {since : ℤ} {key : SigningKey} {state : State}
    (member : key ∈ activeKeys state.store.db) :
    ServesKeyId grace allowance since key.keyId state := by
  obtain ⟨inRing, isActive⟩ := List.mem_filter.mp member
  exact ⟨key, inRing, rfl, .of_active (by simpa using isActive)⟩

theorem getOrCreateActiveKeyAsync_serves :
    (getOrCreateActiveKeyAsync services).wp (.ageing grace allowance) call
      (ReturnsServing grace allowance start) start := by
  have calm : Calm (.ageing grace allowance) call (RingAges grace allowance) := inferInstance
  simp only [getOrCreateActiveKeyAsync, Program.wp_bind]
  refine Action.calm_queryOrThrow calm ?_
  intro seen see
  cases found : Action.singleOrDefault (activeKeys seen.store.db) with
  | error exception => exact ⟨see, fun _ impossible => nomatch impossible⟩
  | ok active =>
  cases active with
  | some key =>
      refine ⟨see, ?_⟩
      rintro _ ⟨⟩
      exact serves_of_active (Action.mem_of_singleOrDefault_rows found)
  | none =>
  rw [Program.andThen_ok, Program.wp_bind]
  refine Action.calm_utcNow calm ?_
  intro read reading
  rw [Program.andThen_ok, Program.wp_bind]
  refine calm_createKey calm ?_
  intro created made active _ make
  have known := (see.trans _ _ _ reading).trans _ _ _ make
  rw [Program.andThen_ok, Program.wp_bind, Program.wp_tryCatch, Program.wp_bind]
  refine wp_offer_ages (fun _ _ _ _ _ saved => offered_of_insert active saved) ?_ ?_
  · rintro later offered ⟨row, member, named, rowActive⟩
    refine ⟨known.trans _ _ _ offered, ?_⟩
    rintro _ ⟨⟩
    exact ⟨row, member, named, .of_active rowActive⟩
  · intro lost exception offered
    have reached := known.trans _ _ _ offered
    rw [Program.andThen_error]
    dsimp only
    split
    case isFalse => exact ⟨reached, fun _ impossible => nomatch impossible⟩
    case isTrue =>
      rw [Program.wp_pure, Program.andThen_ok, if_neg (by decide)]
      refine Action.calm_queryOrThrow calm ?_
      intro again reread
      refine ⟨reached.trans _ _ _ reread, ?_⟩
      intro key winner
      exact serves_of_active (Action.single_eq_ok.mp winner ▸ List.mem_cons_self)

theorem getOrCreateActiveKeyAsync_ages (services : Services) :
    Keeps (.ageing grace allowance) (RingAges grace allowance)
      (getOrCreateActiveKeyAsync services) :=
  fun _ _ => Program.wp_mono getOrCreateActiveKeyAsync_serves fun _ _ reached => reached.1

theorem rotateAsync_ages (valid : ValidRing start.store.db.signingKeys) :
    (rotateAsync services http).wp (.ageing grace allowance) call
      (fun _ after => RingAges grace allowance start after) start := by
  have calm : Calm (.ageing grace allowance) call (RingAges grace allowance) := inferInstance
  simp only [rotateAsync, Program.wp_bind]
  refine Action.calm_utcNow calm ?_
  intro read reading
  rw [Program.andThen_ok, Program.wp_bind]
  refine Action.calm_queryOrThrow calm ?_
  intro seen see
  have reached := reading.trans _ _ _ see
  cases found : Action.singleOrDefault (activeKeys seen.store.db) with
  | error exception => exact reached
  | ok current =>
  rw [Program.andThen_ok, Program.wp_bind]
  refine calm_createKey calm ?_
  intro replacement made active dated make
  have known := reached.trans _ _ _ make
  rw [Program.andThen_ok, Program.wp_bind]
  refine wp_offer_ages ?_ ?_ ?_
  · intro later input db waits admitted saved
    have since : RingAges grace allowance seen later := make.trans _ _ _ waits
    have stillValid := since.accounted.valid (reached.accounted.valid valid)
    have present : ∀ key, current = some key →
        key.status = .active ∧ ∃ row ∈ later.store.db.signingKeys, row.status = .active := by
      rintro key rfl
      obtain ⟨stored, isActive⟩ := List.mem_filter.mp (Action.mem_of_singleOrDefault_rows found)
      have keyActive : key.status = .active := by simpa using isActive
      exact ⟨keyActive, since.accounted.kept.active ⟨key, stored, keyActive⟩⟩
    constructor
    case step => exact (replaceKey_step stillValid present active saved).1
    case ages =>
      refine replaceKey_ages stillValid present ?_ active ?_ saved
      · rintro key rfl row member same rowActive
        obtain ⟨stored, -⟩ := List.mem_filter.mp (Action.mem_of_singleOrDefault_rows found)
        obtain ⟨aged, agedMember, ages⟩ := since.keys key stored
        obtain rfl := Table.Keyed.eq_of_key stillValid.ids member agedMember
          (same.trans ages.continues.same.id.symm)
        exact ages.stays (rowActive.trans (present key rfl).1.symm)
      · intro demotes
        obtain ⟨key, rfl⟩ := Option.isSome_iff_exists.mp demotes
        have prompt : input.now ≤ replacement.activatedAt + allowance :=
          admitted.prompt _ List.mem_cons_self
        rw [dated] at prompt
        exact Int.le_trans admitted.clock prompt
    case added =>
      cases current with
      | none => exact (@offered_of_insert grace allowance _ _ _ 0 0 _ active saved).added
      | some key =>
          obtain ⟨middle, -, inserted⟩ := bind_eq_ok.mp saved
          obtain ⟨-, rfl⟩ := Db.insertSigningKey_eq_ok.mp inserted
          exact ⟨_, List.mem_append_right _ List.mem_cons_self, rfl, active⟩
  · intro later offered _
    have saved := known.trans _ _ _ offered
    rw [Program.andThen_ok, Program.wp_bind]
    refine AuditLogger.wp_logAsync calm ?_
    intro logged log
    exact saved.trans _ _ _ log
  · exact fun later exception offered => known.trans _ _ _ offered

/-- What the loop over demoted keys prepares. -/
theorem retireKeys_yields {law : Law Input World Event} {K : State → State → Prop}
    [∀ call, Calm law call K] {keys : List SigningKey}
    (demoted : ∀ key ∈ keys, key.status = .retiring) :
    Yields law K (fun rows _ => ∀ row ∈ rows, row.1 ∈ keys ∧ Retires row) (retireKeys keys) := by
  induction keys with
  | nil =>
      apply Yields.pure
      exact fun _ _ member => nomatch member
  | cons key rest inductionHypothesis =>
      refine .bind .utcNow fun now => ?_
      intro call start
      have yields := inductionHypothesis fun key member =>
        demoted key (List.mem_cons_of_mem _ member)
      refine Program.wp_bind_of (yields call start) ?_ ?_
      · rintro rows after ⟨kept, retires⟩
        refine ⟨kept, ?_⟩
        rintro _ ⟨⟩ row member
        rcases List.mem_cons.mp member with rfl | inRest
        · exact ⟨List.mem_cons_self, demoted key List.mem_cons_self, now, rfl⟩
        · obtain ⟨known, retired⟩ := retires rows rfl row inRest
          exact ⟨List.mem_cons_of_mem _ known, retired⟩
      · rintro exception after ⟨kept, -⟩
        exact ⟨kept, fun _ impossible => nomatch impossible⟩

omit services in
theorem removeKeys_ages (services : Services) (process : ℕ) (keys : List SigningKey) :
    Keeps (.ageing grace allowance) (RingAges grace allowance)
      (removeKeys services process keys) := by
  have access : ∀ write : Caches → Caches,
      Keeps (.ageing grace allowance) (RingAges grace allowance) (Action.updateCaches write) := by
    intro write
    refine .frame_atomically (fun _ _ => rfl) (fun _ _ => Nat.le_refl _) ?_
    intro _ _ other member
    cases member
  induction keys with
  | nil => exact .pure ()
  | cons key rest inductionHypothesis =>
      refine .bind (.bind (access _) fun _ => ?_) fun _ => inductionHypothesis
      exact .ite (access _) (.pure ())

theorem retireElapsedKeysAsync_ages {process : ℕ} (valid : ValidRing start.store.db.signingKeys) :
    (retireElapsedKeysAsync services process).wp
      (.ageing services.jwtOptions.keyRetirementGrace allowance) call
      (fun _ after => RingAges services.jwtOptions.keyRetirementGrace allowance start after)
        start := by
  have calm : Calm (.ageing services.jwtOptions.keyRetirementGrace allowance) call
      (RingAges services.jwtOptions.keyRetirementGrace allowance) := inferInstance
  simp only [retireElapsedKeysAsync, Program.wp_bind]
  refine Action.calm_utcNow calm ?_
  intro read reading
  rw [Program.andThen_ok, Program.wp_bind]
  refine Action.calm_query calm ?_
  intro seen see
  have reached := reading.trans _ _ _ see
  rw [Program.andThen_ok]
  generalize listed : seen.store.db.signingKeys.filter
    (elapsed (read.last.now - services.jwtOptions.keyRetirementGrace)) = keys
  have stored : ∀ key ∈ keys, key ∈ seen.store.db.signingKeys ∧ key.status = .retiring ∧
      ∃ demotedAt : ℤ, key.retiringAt = some demotedAt ∧
        demotedAt + services.jwtOptions.keyRetirementGrace ≤ read.last.now := by
    intro key member
    rw [← listed] at member
    obtain ⟨inRing, isElapsed⟩ := List.mem_filter.mp member
    simp only [elapsed, Bool.and_eq_true, decide_eq_true_eq, Option.any_eq_true] at isElapsed
    obtain ⟨retiring, demotedAt, recorded, long⟩ := isElapsed
    exact ⟨inRing, retiring, demotedAt, recorded, Int.add_le_of_le_sub_right long⟩
  have prepares : Yields (.ageing services.jwtOptions.keyRetirementGrace allowance)
      (RingAges services.jwtOptions.keyRetirementGrace allowance)
      (fun rows _ => ∀ row ∈ rows, row.1 ∈ keys ∧ Retires row) (retireKeys keys) :=
    retireKeys_yields fun key member => (stored key member).2.1
  refine Program.wp_bind_of (prepares call seen) ?_ ?_
  case refine_2 => exact fun _ _ ended => reached.trans _ _ _ ended.1
  rintro rows prepared ⟨prepare, retires⟩
  have ready := reached.trans _ _ _ prepare
  split
  case isFalse => exact ready
  case isTrue =>
  rw [Program.wp_bind]
  refine Action.wp_saveChanges calm ?_ ?_
  · intro current input db since saved admitted
    have known := ready.trans _ _ _ since
    have later := prepare.trans _ _ _ since
    have stillValid := known.accounted.valid valid
    have onward : read.last.now ≤ input.now :=
      Int.le_trans see.clock (Int.le_trans later.clock admitted.clock)
    have rowsElapsed : ∀ row ∈ rows,
        Elapsed services.jwtOptions.keyRetirementGrace input.now current.store.db row := by
      intro row member other otherMember same
      obtain ⟨inRing, retiring, demotedAt, recorded, long⟩ :=
        stored row.1 (retires rows rfl row member).1
      obtain ⟨aged, agedMember, ages⟩ := later.keys row.1 inRing
      obtain rfl := Table.Keyed.eq_of_key stillValid.ids otherMember agedMember
        (same.trans ages.continues.same.id.symm)
      constructor
      · intro active
        have rank := ages.continues.rank
        rw [active, retiring] at rank
        exact absurd rank (by decide)
      · intro stillRetiring
        exact ⟨demotedAt, (ages.stays (stillRetiring.trans retiring.symm)).trans recorded,
          Int.le_trans long onward⟩
    have step : RingStep current.store.db.signingKeys
        (.signingKeysRetired keys) db.signingKeys := by
      refine updateKeys_step (fun row member => (retires rows rfl row member).2) ?_ saved
      exact fun row member other otherMember same =>
        (rowsElapsed row member other otherMember same).1
    have kept : RingAges services.jwtOptions.keyRetirementGrace allowance current
        (current.advance call input ({ current.store with db }, [.signingKeysRetired keys])) := by
      refine ⟨admitted.clock, Accounts.advance_iff.mpr (.single step), ?_⟩
      intro key member
      obtain ⟨aged, agedMember, ages⟩ :=
        updateKeys_ages (fun row member => (retires rows rfl row member).2) rowsElapsed
          saved key member
      exact ⟨aged, agedMember, ages.mono admitted.clock (Int.le_refl _)⟩
    refine ⟨kept, ?_⟩
    have removes : Keeps (.ageing services.jwtOptions.keyRetirementGrace allowance)
        (RingAges services.jwtOptions.keyRetirementGrace allowance)
        (removeKeys services process keys >>= fun _ => (pure keys.length : Action ℕ)) :=
      .bind (removeKeys_ages services process keys) fun _ => .pure _
    exact removes.after (known.trans _ _ _ kept)
  · intro current later exception now since waits _
    exact (ready.trans _ _ _ since).trans _ _ _ waits

omit services in
theorem sign_ages (services : Services) (key : SigningKey) (payload : String) :
    Keeps (.ageing grace allowance) (RingAges grace allowance) (sign services key payload) :=
  .bind (.orThrow _ _) fun _ => .bind (.drawReporting id) fun _ => .pure _

theorem signAsync_ages {payload : String} (valid : ValidRing start.store.db.signingKeys) :
    (signAsync services http payload).wp (.ageing grace allowance) call
      (fun _ after => RingAges grace allowance start after) start := by
  refine Program.wp_bind_of (getOrCreateActiveKeyAsync_ages services call start) ?_ ?_
  case refine_2 => exact fun _ _ reached => reached
  intro key created reached
  rw [Program.wp_tryCatch]
  refine Program.wp_mono ((sign_ages services key payload).after reached) ?_
  intro outcome signed known
  cases outcome with
  | ok result => exact known
  | error exception =>
  dsimp only
  split
  case isFalse => exact known
  case isTrue =>
  refine Program.wp_bind_of (rotateAsync_ages (known.accounted.valid valid)) ?_ ?_
  case refine_2 => exact fun _ _ rotated => known.trans _ _ _ rotated
  intro keyId rotated rotates
  have replaces : Keeps (.ageing grace allowance) (RingAges grace allowance)
      (getOrCreateActiveKeyAsync services >>= fun replacement =>
        sign services replacement payload) :=
    .bind (getOrCreateActiveKeyAsync_ages services) fun _ => sign_ages services _ payload
  exact replaces.after (known.trans _ _ _ rotates)

end Operations

end SigningKeyManager

namespace AccessTokenIssuer

variable {services : Services} {http : HttpContext} {grace allowance : ℤ} {call : ℕ} {start : State}

theorem serves_shifted {middle after : State} {keyId : String}
    (reached : RingAges grace allowance start middle)
    (serves : ServesKeyId grace allowance middle.last.now keyId after) :
    ServesKeyId grace allowance start.last.now keyId after := by
  obtain ⟨key, member, named, good⟩ := serves
  exact ⟨key, member, named, good.earlier reached.clock⟩

theorem getActiveKeyIdAsync_serves :
    (SigningKeyManager.getActiveKeyIdAsync services).wp (.ageing grace allowance) call
      (fun outcome after => RingAges grace allowance start after ∧
        ∀ keyId, outcome = .ok keyId → ServesKeyId grace allowance start.last.now keyId after)
          start := by
  refine Program.wp_bind_of SigningKeyManager.getOrCreateActiveKeyAsync_serves ?_ ?_
  · rintro key after ⟨reached, serves⟩
    refine ⟨reached, ?_⟩
    rintro _ ⟨⟩
    exact serves key rfl
  · rintro exception after ⟨reached, -⟩
    exact ⟨reached, fun _ impossible => nomatch impossible⟩

/-- The key in the header serves from the beginning of the signing, and the payload is the given
one. -/
theorem signPayload_serves {payload : AccessToken} {attempts : ℕ}
    (valid : ValidRing start.store.db.signingKeys) :
    (signPayload services http payload attempts).wp (.ageing grace allowance) call
      (fun outcome after => RingAges grace allowance start after ∧
        ∀ token, outcome = .ok token → token.payload = payload ∧
          ServesKeyId grace allowance start.last.now token.header.kid after) start := by
  induction attempts generalizing start with
  | zero => exact ⟨.refl start, fun _ impossible => nomatch impossible⟩
  | succ attempts inductionHypothesis =>
      refine Program.wp_bind_of getActiveKeyIdAsync_serves ?_ ?_
      case refine_2 =>
        exact fun exception after ended => ⟨ended.1, fun _ impossible => nomatch impossible⟩
      rintro keyId named ⟨reached, serves⟩
      have stillValid := reached.accounted.valid valid
      refine Program.wp_bind_of (SigningKeyManager.signAsync_ages stillValid) ?_ ?_
      case refine_2 =>
        exact fun exception after signs =>
          ⟨reached.trans _ _ _ signs, fun _ impossible => nomatch impossible⟩
      intro result signed signs
      have known := reached.trans _ _ _ signs
      split
      case isTrue =>
        refine Program.wp_mono (inductionHypothesis (known.accounted.valid valid)) ?_
        rintro outcome after ⟨more, made⟩
        refine ⟨known.trans _ _ _ more, ?_⟩
        intro token returned
        obtain ⟨same, good⟩ := made token returned
        exact ⟨same, serves_shifted known good⟩
      case isFalse =>
        refine ⟨known, ?_⟩
        rintro _ ⟨⟩
        exact ⟨rfl, (serves keyId rfl).later reached.clock signs⟩

/-- A token as it is issued at an instant: it expires by its claims, and its key serves. -/
structure IssuedAt (services : Services) (allowance : ℤ) (issued : IssuedSignedToken) (issuedAt : ℤ)
    (state : State) : Prop where
  begun : issuedAt ≤ state.last.now
  expires : issued.expiresAt = issuedAt + services.jwtOptions.accessTokenLifetime
  exp : issued.value.payload.exp = toUnixTimeSeconds issued.expiresAt
  serves : ServesKeyId services.jwtOptions.keyRetirementGrace allowance issuedAt
    issued.value.header.kid
    state

theorem IssuedAt.later {issued : IssuedSignedToken} {issuedAt : ℤ} {before after : State}
    (holds : IssuedAt services allowance issued issuedAt before)
    (ages : RingAges services.jwtOptions.keyRetirementGrace allowance before after) :
    IssuedAt services allowance issued issuedAt after where
  begun := Int.le_trans holds.begun ages.clock
  expires := holds.expires
  exp := holds.exp
  serves := holds.serves.later holds.begun ages

theorem issueSignedAsync_serves {request : AccessTokenRequest}
    (valid : ValidRing start.store.db.signingKeys) :
    (issueSignedAsync services http request).wp
      (.ageing services.jwtOptions.keyRetirementGrace allowance) call
      (fun outcome after => RingAges services.jwtOptions.keyRetirementGrace allowance start after ∧
        ∀ issued, outcome = .ok issued →
          ∃ issuedAt, IssuedAt services allowance issued issuedAt after)
      start := by
  have calm : Calm (.ageing services.jwtOptions.keyRetirementGrace allowance) call
      (RingAges services.jwtOptions.keyRetirementGrace allowance) := inferInstance
  rw [issueSignedAsync, Program.wp_bind, Action.utcNowReporting, Program.wp_atomically]
  intro current relied input admitted
  obtain ⟨kept, dated⟩ :=
    Frames.frame (K := RingAges services.jwtOptions.keyRetirementGrace allowance)
    call current input current.store [.accessTokenDated] admitted rfl (Nat.le_refl _)
    fun _ member => List.mem_singleton.mp member ▸ id
  have read := calm.trans _ _ _ (calm.rely _ _ relied) dated
  refine ⟨kept, ?_⟩
  rw [Program.andThen_ok, Program.wp_bind]
  refine Action.calm_draw calm ?_
  intro waited drawn wait draw _
  have since := calm.trans _ _ _ wait draw
  have reached := calm.trans _ _ _ read since
  rw [Program.andThen_ok]
  refine Program.wp_bind_of (signPayload_serves (reached.accounted.valid valid)) ?_ ?_
  · rintro value after ⟨signs, made⟩
    refine ⟨reached.trans _ _ _ signs, ?_⟩
    rintro _ ⟨⟩
    obtain ⟨same, serves⟩ := made value rfl
    refine ⟨input.now, Int.le_trans since.clock signs.clock, rfl, ?_, ?_⟩
    · rw [same]
      rfl
    · exact serves_shifted since serves
  · rintro exception after ⟨signs, -⟩
    exact ⟨reached.trans _ _ _ signs, by rintro _ ⟨⟩⟩

end AccessTokenIssuer

/-! ### Every interleaving -/

/-- What an issuing that has ended has returned. -/
def KeyOperation.Lasts (services : Services) (allowance : ℤ)
    (outcome : Except AppException KeyResponse) (final : State) : Prop :=
  ∀ issued, outcome = .ok (.issued issued) →
    ∃ issuedAt, AccessTokenIssuer.IssuedAt services allowance issued issuedAt final

section

variable {services : Services} {operations : List KeyOperation} {start : State} {allowance : ℤ}

theorem KeyOperation.wp_lasts {op : KeyOperation} {call : ℕ}
    (valid : ValidRing start.store.db.signingKeys) :
    (op.program services).wp (.ageing services.jwtOptions.keyRetirementGrace allowance) call
      (fun outcome after => Lasts services allowance outcome after) start := by
  have silent : ∀ {exception : AppException} {state : State},
      Lasts services allowance (.error exception) state := fun _ impossible => nomatch impossible
  cases op with
  | bootstrap =>
      refine Program.wp_bind_of AccessTokenIssuer.getActiveKeyIdAsync_serves ?_ fun _ _ _ => silent
      exact fun _ _ _ _ impossible => nomatch impossible
  | rotate http =>
      refine Program.wp_bind_of (SigningKeyManager.rotateAsync_ages valid) ?_ fun _ _ _ => silent
      exact fun _ _ _ _ impossible => nomatch impossible
  | retireElapsed process =>
      refine Program.wp_bind_of (SigningKeyManager.retireElapsedKeysAsync_ages valid) ?_
        fun _ _ _ => silent
      exact fun _ _ _ _ impossible => nomatch impossible
  | issue http request =>
      refine Program.wp_bind_of (AccessTokenIssuer.issueSignedAsync_serves valid) ?_
        fun _ _ _ => silent
      rintro issued after ⟨-, lasts⟩
      rintro _ ⟨⟩
      exact lasts issued rfl

/-- The key of an accepted token can be resolved, or the token is in the last `allowance` of the
time for which it is accepted and the grace period is too short by then. -/
def StillResolvable (services : Services) (allowance now : ℤ) (issued : IssuedSignedToken)
    (ring : List SigningKey) : Prop :=
  (∃ key ∈ ring, SigningKeyManager.validates issued.value.header.kid key = true) ∨
    issued.value.payload.exp * ticksPerSecond + services.jwtOptions.clockSkew ≤ now + allowance ∧
      services.jwtOptions.keyRetirementGrace ≤
        services.jwtOptions.accessTokenLifetime + services.jwtOptions.clockSkew + allowance

theorem AccessTokenIssuer.IssuedAt.stillResolvable {issued : IssuedSignedToken} {issuedAt now : ℤ}
    {state : State} (holds : IssuedAt services allowance issued issuedAt state)
    (grace : services.jwtOptions.accessTokenLifetime + services.jwtOptions.clockSkew ≤
      services.jwtOptions.keyRetirementGrace)
    (later : state.last.now ≤ now)
    (accepted : ConfigureJwtBearerOptions.validateLifetime services.jwtOptions.clockSkew now none
      (some (issued.value.payload.exp * ticksPerSecond)) = true) :
    StillResolvable services allowance now issued state.store.db.signingKeys := by
  obtain ⟨key, member, named, serves⟩ := holds.serves
  have seconds : issued.value.payload.exp * ticksPerSecond ≤
      issuedAt + services.jwtOptions.accessTokenLifetime := by
    rw [holds.exp, ← holds.expires]
    exact Int.ediv_mul_le _ (by decide)
  have unexpired :
      now - services.jwtOptions.clockSkew ≤ issued.value.payload.exp * ticksPerSecond := by
    simpa [ConfigureJwtBearerOptions.validateLifetime] using accepted
  by_cases retired : key.status = .retired
  case neg =>
    refine .inl ⟨key, member, ?_⟩
    cases status : key.status with
    | active | retiring => simp [SigningKeyManager.validates, named, status]
    | retired => exact absurd status retired
  case pos =>
    have long : issuedAt + services.jwtOptions.keyRetirementGrace ≤ state.last.now + allowance := by
      by_contra early
      exact serves.not_retired (Int.not_le.mp early) retired
    have sooner : issuedAt + services.jwtOptions.keyRetirementGrace ≤ now + allowance :=
      Int.le_trans long (Int.add_le_add_right later _)
    have limit : issued.value.payload.exp * ticksPerSecond + services.jwtOptions.clockSkew ≤
        issuedAt + services.jwtOptions.accessTokenLifetime + services.jwtOptions.clockSkew :=
      Int.add_le_add_right seconds _
    have reads : now ≤ issued.value.payload.exp * ticksPerSecond + services.jwtOptions.clockSkew :=
      Int.sub_right_le_iff_le_add.mp unexpired
    refine .inr ⟨?_, ?_⟩
    · calc issued.value.payload.exp * ticksPerSecond + services.jwtOptions.clockSkew
          ≤ issuedAt + services.jwtOptions.accessTokenLifetime + services.jwtOptions.clockSkew :=
            limit
        _ = issuedAt + (services.jwtOptions.accessTokenLifetime + services.jwtOptions.clockSkew) :=
          Int.add_assoc _ _ _
        _ ≤ issuedAt + services.jwtOptions.keyRetirementGrace := Int.add_le_add_left grace _
        _ ≤ now + allowance := sooner
    · apply Int.le_of_add_le_add_left (a := issuedAt)
      calc issuedAt + services.jwtOptions.keyRetirementGrace
          ≤ now + allowance := sooner
        _ ≤ issuedAt + services.jwtOptions.accessTokenLifetime + services.jwtOptions.clockSkew +
            allowance := Int.add_le_add_right (Int.le_trans reads limit) _
        _ = issuedAt + (services.jwtOptions.accessTokenLifetime + services.jwtOptions.clockSkew +
            allowance) := by rw [Int.add_assoc, Int.add_assoc, Int.add_assoc]

/-- In every interleaving of the operations on signing keys, on any number of instances. -/
theorem keys_outlive_tokens (parser : UriParser) (isLoopback : Uri → Bool) (productionLike : Bool)
    (valid : ValidRing start.store.db.signingKeys)
    (configured :
      JwtOptionsValidator.validate parser isLoopback productionLike services.jwtOptions =
      .success) {schedule : List (ℕ × Input)}
    (prompt : (operatingKeys services operations start).Admitted (Promptly allowance) schedule) :
    let final := (operatingKeys services operations start).run schedule
    ∀ call issued, final.outcome? call = some (.ok (.issued issued)) →
      ∀ now, final.shared.last.now ≤ now →
        ConfigureJwtBearerOptions.validateLifetime services.jwtOptions.clockSkew now none
          (some (issued.value.payload.exp * ticksPerSecond)) = true →
        StillResolvable services allowance now issued final.shared.store.db.signingKeys := by
  intro final call issued returned now later accepted
  have verified : (operatingKeys services operations start).Verified (Promptly allowance)
      (RingAges services.jwtOptions.keyRetirementGrace allowance)
      (fun _ outcome after => KeyOperation.Lasts services allowance outcome after) := by
    refine Pool.verified_of_wp RingAges.refl ?_
    intro call program present
    simp only [operatingKeys, List.getElem?_map, Option.map_eq_some_iff] at present
    obtain ⟨op, -, rfl⟩ := present
    exact op.wp_lasts valid
  obtain ⟨-, stillVerified⟩ := Pool.run_wp RingAges.refl RingAges.trans verified prompt
  obtain ⟨earlier, since, -, lasts⟩ := stillVerified.outcome returned
  obtain ⟨issuedAt, holds⟩ := lasts issued rfl
  exact (holds.later since).stillResolvable
    (JwtOptionsValidator.grace_of_success configured) later accepted

end

/-- Tokens for ten seconds, under the shortest grace period that the validator accepts. -/
def shortLived : Services :=
  { Services.sample with
    jwtOptions :=
      { issuer := "https://api.example"
        accessTokenLifetime := 10 * ticksPerSecond
        clockSkew := 5 * ticksPerSecond
        keyRetirementGrace := 15 * ticksPerSecond } }

/-- A token is issued, its key is demoted at the same instant, and elapsed keys are retired. -/
def retiring : KeyPool :=
  operatingKeys shortLived
    [.issue {} ⟨1, 2, true, [], [.password], 0⟩, .rotate {}, .retireElapsed 0]
    (Shared.initial { db := {} } ⟨0, false⟩)

def retiredAfter (seconds : ℤ) : List (ℕ × Input) :=
  let steps (call count : ℕ) (second : ℤ) : List (ℕ × Input) :=
    List.replicate count (call, ⟨second * ticksPerSecond, false⟩)
  steps 0 14 0 ++ steps 1 10 0 ++ steps 2 6 seconds

/-- The token passes the lifetime check, and its key is among those that validate. -/
def acceptedAndResolved (seconds : ℤ) : Bool × Bool :=
  let final := retiring.run (retiredAfter seconds)
  match final.outcome? 0 with
  | some (.ok (.issued issued)) =>
      (ConfigureJwtBearerOptions.validateLifetime shortLived.jwtOptions.clockSkew
          (seconds * ticksPerSecond) none (some (issued.value.payload.exp * ticksPerSecond)),
        final.shared.store.db.signingKeys.any (SigningKeyManager.validates issued.value.header.kid))
  | _ => (false, false)

theorem keys_outlive_tokens_sample :
    acceptedAndResolved 14 = (true, true) ∧
      ∀ call issued, (retiring.run (retiredAfter 14)).outcome? call = some (.ok (.issued issued)) →
        ∀ now, (retiring.run (retiredAfter 14)).shared.last.now ≤ now →
          ConfigureJwtBearerOptions.validateLifetime shortLived.jwtOptions.clockSkew now none
            (some (issued.value.payload.exp * ticksPerSecond)) = true →
          StillResolvable shortLived 0 now issued
            (retiring.run (retiredAfter 14)).shared.store.db.signingKeys := by
  have empty : ValidRing [] :=
    ⟨List.nodup_nil, List.nodup_nil, fun _ impossible => nomatch impossible⟩
  refine ⟨by decide +kernel, ?_⟩
  exact keys_outlive_tokens ⟨fun _ => some ⟨"https", "api.example", 443, "/", "", "", ""⟩⟩
    (fun _ => false)
    true empty (by decide) (Pool.admitted_of_admitted? (by decide +kernel))

/-- At the last instant at which the token is accepted its key may be gone. -/
example : acceptedAndResolved 15 = (true, false) := by decide +kernel

end AuthStartpack
