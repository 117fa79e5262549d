import AuthStartpack.Data.Alone
import AuthStartpack.Services.Dependencies

/-!
Owns the two statements that every user of the verification token table issues:
storing a token of its type, and consuming a presented one by a conditional
update that re-checks hash, type, expiry and consumption on the stored row.
-/

namespace AuthStartpack

structure IssuedVerificationToken where
  value : String
  expiresAt : Instant
deriving DecidableEq, Repr

namespace VerificationTokens

/-- A new token of this type, saved. -/
def store (services : Services) (userId : Option Guid) (type : VerificationTokenType)
    (lifetime : Duration) (report : VerificationToken → List Event := fun _ => []) :
    Action IssuedVerificationToken := do
  let plaintext := services.tokenGenerator.newOpaqueToken (← Action.draw)
  let expiresAt := (← Action.utcNow) + lifetime
  let token : VerificationToken :=
    { id := ← Action.draw
      userId
      type
      tokenHash := services.tokenGenerator.hash plaintext
      expiresAt }
  Action.saveChanges (fun now db => db.insertVerificationToken now token) fun _ => report token
  return ⟨plaintext, expiresAt⟩

/-- The predicate of the conditional update. A consumer may require more of the row. -/
def consumable (hash : String) (type : VerificationTokenType) (now : Instant)
    (requires : VerificationToken → Bool) (token : VerificationToken) : Bool :=
  token.tokenHash = hash && token.type = type && requires token && token.consumedAt = none &&
    now < token.expiresAt

theorem consumable_iff {hash : String} {type : VerificationTokenType} {now : Instant}
    {requires : VerificationToken → Bool} {token : VerificationToken} :
    consumable hash type now requires token = true ↔
      token.tokenHash = hash ∧ token.type = type ∧ requires token = true ∧ token.consumedAt = none ∧
        now < token.expiresAt := by
  simp [consumable, and_assoc]

/-- Mark the presented token as consumed; the number of tokens marked. -/
def consume (hash : String) (type : VerificationTokenType) (now : Instant)
    (requires : VerificationToken → Bool) (consumer : TokenConsumer) : Action ℕ :=
  let pred := consumable hash type now requires
  Action.execute (fun db => db.verificationTokens.countP pred)
    (fun db => { db with
      verificationTokens :=
        Table.updateWhere pred ({ · with consumedAt := some now }) db.verificationTokens })
    fun db => (db.verificationTokens.filter pred).map (.verificationTokenConsumed · consumer)

theorem wp_consume {law : Law Input World Event} {call : ℕ} {K : State → State → Prop}
    {state : State}
    (calm : Calm law call K) {hash : String} {type : VerificationTokenType} {now : Instant}
    {requires : VerificationToken → Bool} {consumer : TokenConsumer}
    {post : Except AppException ℕ → State → Prop}
    (step : ∀ current input, K state current →
      let hits := current.store.db.verificationTokens.filter (consumable hash type now requires)
      let events := hits.map (Event.verificationTokenConsumed · consumer)
      let marked := Table.updateWhere (consumable hash type now requires)
        ({ · with consumedAt := some now }) current.store.db.verificationTokens
      let consumed := current.advance call input
        ({ current.store with db := { current.store.db with verificationTokens := marked } },
          events)
      law.admits current call input events →
        law.guarantee call current consumed ∧ post (.ok hits.length) consumed) :
    (consume hash type now requires consumer).wp law call post state := by
  unfold consume
  refine Action.wp_execute calm ?_
  intro current input reached admitted
  obtain ⟨kept, answers⟩ := step current input reached admitted
  rw [List.countP_eq_length_filter]
  exact ⟨kept, answers⟩

/-- The user of the token with this hash (`SingleAsync`). -/
def userOf (hash : String) : Action (Option Guid) :=
  Action.queryOrThrow fun db =>
    Action.single ((db.verificationTokens.filter (·.tokenHash = hash)).map (·.userId))

end VerificationTokens

end AuthStartpack
