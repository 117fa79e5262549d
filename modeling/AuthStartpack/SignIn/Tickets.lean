import AuthStartpack.Tokens.Frames

/-!
Owns where the tickets of a second factor come from and where they go. Only a
login adds a ticket, for the user whose password it has accepted. A ticket is
consumed once, and no later token has its hash: that of a token is the hash of a
value that its issuer has drawn.
-/

namespace AuthStartpack

/-- What a token keeps from its issue on. -/
def VerificationToken.issue (token : VerificationToken) :
    Option Guid × VerificationTokenType × String × Instant :=
  (token.userId, token.type, token.tokenHash, token.expiresAt)

/-- What a step may do to the tokens: consume some, delete some, and add some with the hashes of
drawn values. -/
structure TokensMove (services : Services) (call : ℕ) (before after : State) : Prop where
  rows : ∀ row ∈ after.store.db.verificationTokens,
    (∃ old ∈ before.store.db.verificationTokens, old.issue = row.issue ∧
      (old.consumedAt ≠ none → row.consumedAt ≠ none)) ∨
    (∀ old ∈ before.store.db.verificationTokens, old.tokenHash ≠ row.tokenHash) ∧
      ∃ number, row.tokenHash = services.tokenGenerator.hash
        (services.tokenGenerator.newOpaqueToken number)
  keyed : Table.Keyed VerificationToken.tokenHash before.store.db.verificationTokens →
    Table.Keyed VerificationToken.tokenHash after.store.db.verificationTokens
  consumed : ∃ added, after.journal = before.journal ++ added ∧ ∀ entry ∈ added, entry.call = call ∧
    ∀ token consumer, entry.event = .verificationTokenConsumed token consumer →
      (token ∈ before.store.db.verificationTokens ∧ token.consumedAt = none) ∧
        (Table.Keyed VerificationToken.tokenHash before.store.db.verificationTokens →
          ∀ row ∈ after.store.db.verificationTokens, row.tokenHash = token.tokenHash →
            row.issue = token.issue ∧ row.consumedAt ≠ none)

/-- Tickets were there before, or are issued. -/
def TicketsFrom (issued : VerificationToken → Prop) (before after : List VerificationToken) :
    Prop :=
  ∀ row ∈ after, row.type = .mfaChallenge → (∃ old ∈ before, old.issue = row.issue) ∨ issued row

/-- At the moments that are seen, tokens move, and no ticket is added that is not issued. -/
abbrev Law.ticketing (services : Services) (seen : ℕ → State → Input → Prop)
    (issued : VerificationToken → Prop) : Law Input World Event where
  admits state call input _ := seen call state input
  rely _ _ _ := True
  guarantee call before after := TokensMove services call before after ∧
    TicketsFrom issued before.store.db.verificationTokens after.store.db.verificationTokens

section Steps

variable {services : Services} {seen : ℕ → State → Input → Prop} {issued : VerificationToken → Prop}
variable {call : ℕ} {state : State} {input : Input} {world : World} {events : List Event}

/-- Nothing is consumed. -/
theorem journal_of_silent (silent : ∀ event ∈ events, event.consumption? = none) (after : State)
    (journal : after.journal = state.journal ++ events.map (Entry.mk call input)) :
    ∃ added, after.journal = state.journal ++ added ∧ ∀ entry ∈ added, entry.call = call ∧
      ∀ token consumer, entry.event ≠ .verificationTokenConsumed token consumer := by
  refine ⟨_, journal, ?_⟩
  intro entry member
  obtain ⟨event, isEvent, rfl⟩ := List.mem_map.mp member
  refine ⟨rfl, ?_⟩
  intro token consumer consumes
  have isNone := silent event isEvent
  rw [Event.consumption?_eq_some.mpr consumes] at isNone
  cases isNone

/-- A silent step whose rows were there before, with their hashes apart. -/
theorem TokensMove.of_silent (silent : ∀ event ∈ events, event.consumption? = none)
    (rows : ∀ row ∈ world.db.verificationTokens,
      (∃ old ∈ state.store.db.verificationTokens, old.issue = row.issue ∧
        (old.consumedAt ≠ none → row.consumedAt ≠ none)) ∨
      (∀ old ∈ state.store.db.verificationTokens, old.tokenHash ≠ row.tokenHash) ∧
        ∃ number, row.tokenHash =
          services.tokenGenerator.hash (services.tokenGenerator.newOpaqueToken number))
    (keyed : Table.Keyed VerificationToken.tokenHash state.store.db.verificationTokens →
      Table.Keyed VerificationToken.tokenHash world.db.verificationTokens) :
    TokensMove services call state (state.advance call input (world, events)) := by
  obtain ⟨added, growth, nothing⟩ :=
    journal_of_silent silent (state.advance call input (world, events)) rfl
  refine ⟨rows, keyed, added, growth, ?_⟩
  intro entry member
  refine ⟨(nothing entry member).1, ?_⟩
  intro token consumer consumes
  exact absurd consumes ((nothing entry member).2 token consumer)

/-- A silent step that leaves the tokens alone. -/
theorem TokensMove.of_same (silent : ∀ event ∈ events, event.consumption? = none)
    (same : world.db.verificationTokens = state.store.db.verificationTokens) :
    TokensMove services call state (state.advance call input (world, events)) := by
  refine .of_silent silent ?_ (same ▸ id)
  intro row member
  rw [same] at member
  exact .inl ⟨row, member, rfl, id⟩

theorem TicketsFrom.refl (rows : List VerificationToken) : TicketsFrom issued rows rows :=
  fun row member _ => .inl ⟨row, member, rfl⟩

instance : Frames (.ticketing services seen issued) (fun _ _ => True) Db.verificationTokens
    fun event => event.consumption?.isSome = true where
  calm call :=
    { refl := fun _ => trivial
      trans := fun _ _ _ _ _ => trivial
      rely := fun _ _ _ => trivial
      quiet := by
        intro state input world _ step
        obtain ⟨auditLogEntries, equal⟩ := step.db
        have same : world.db.verificationTokens = state.store.db.verificationTokens := by rw [equal]
        refine ⟨⟨.of_same (fun _ member => nomatch member) same, ?_⟩, trivial⟩
        rw [Shared.advance_store, same]
        exact .refl _ }
  frame call state input world events _ same _ silent := by
    refine ⟨⟨.of_same (fun event member => ?_) same, ?_⟩, trivial⟩
    · exact Option.not_isSome_iff_eq_none.mp (silent event member)
    · rw [Shared.advance_store, same]
      exact .refl _

/-- Every step of the program moves tokens so. -/
abbrev MovesTokens (services : Services) (seen : ℕ → State → Input → Prop)
    (issued : VerificationToken → Prop) {α : Type} (program : Action α) : Prop :=
  Keeps (.ticketing services seen issued) (fun _ _ => True) program

namespace MovesTokens

/-- A new token with the hash of a drawn value. -/
theorem insert {rows : List VerificationToken} {row : VerificationToken}
    (same : world.db.verificationTokens = rows ++ [row])
    (stored : state.store.db.verificationTokens = rows)
    (fresh : ∀ other ∈ rows, other.tokenHash ≠ row.tokenHash)
    (drawn : ∃ number, row.tokenHash =
      services.tokenGenerator.hash (services.tokenGenerator.newOpaqueToken number))
    (allowed : row.type = .mfaChallenge → issued row)
    (silent : ∀ event ∈ events, event.consumption? = none) :
    (Law.ticketing services seen issued).guarantee call state
      (state.advance call input (world, events)) := by
  subst stored
  refine ⟨.of_silent silent ?_ ?_, ?_⟩
  · intro other member
    rw [same] at member
    rcases List.mem_append.mp member with old | new
    · exact .inl ⟨other, old, rfl, id⟩
    · rw [List.mem_singleton.mp new]
      exact .inr ⟨fresh, drawn⟩
  · intro keyed
    rw [same]
    exact keyed.append fresh
  · intro other member isTicket
    rw [Shared.advance_store, same] at member
    rcases List.mem_append.mp member with old | new
    · exact .inl ⟨other, old, rfl⟩
    · rw [List.mem_singleton.mp new] at isTicket ⊢
      exact .inr (allowed isTicket)

/-- A silent statement that removes tokens. -/
theorem remove {pred : VerificationToken → Bool}
    (same : world.db.verificationTokens =
      Table.deleteWhere pred state.store.db.verificationTokens)
    (silent : ∀ event ∈ events, event.consumption? = none) :
    (Law.ticketing services seen issued).guarantee call state
      (state.advance call input (world, events)) := by
  refine ⟨.of_silent silent ?_ ?_, ?_⟩
  · intro row member
    rw [same] at member
    exact .inl ⟨row, (Table.mem_deleteWhere.mp member).1, rfl, id⟩
  · intro keyed
    rw [same]
    exact keyed.deleteWhere
  · intro row member _
    rw [Shared.advance_store, same] at member
    exact .inl ⟨row, (Table.mem_deleteWhere.mp member).1, rfl⟩

end MovesTokens

/-- The conditional update. -/
theorem MovesTokens.consume {hash : String} {type : VerificationTokenType} {now : Instant}
    {requires : VerificationToken → Bool} {consumer : TokenConsumer} :
    let pred := VerificationTokens.consumable hash type now requires
    (Law.ticketing services seen issued).guarantee call state (state.advance call input
      ({ state.store with db := { state.store.db with
          verificationTokens := Table.updateWhere pred ({ · with consumedAt := some now })
            state.store.db.verificationTokens } },
        (state.store.db.verificationTokens.filter pred).map
          (.verificationTokenConsumed · consumer))) := by
  intro pred
  have open_ : ∀ row, pred row = true → row.consumedAt = none :=
    fun row hit => (VerificationTokens.consumable_iff.mp hit).2.2.2.1
  have from_ : ∀ row ∈ Table.updateWhere pred ({ · with consumedAt := some now })
      state.store.db.verificationTokens, ∃ old ∈ state.store.db.verificationTokens,
        old.issue = row.issue ∧ (old.consumedAt ≠ none → row.consumedAt ≠ none) := by
    intro row member
    rcases Table.mem_updateWhere_cases member with ⟨old, -⟩ | ⟨old, oldMember, -, rfl⟩
    · exact ⟨row, old, rfl, id⟩
    · exact ⟨old, oldMember, rfl, fun _ => Option.some_ne_none now⟩
  refine ⟨⟨fun row member => .inl (from_ row member), fun keyed => keyed.updateWhere
    fun _ => rfl, ?_⟩, ?_⟩
  · refine ⟨_, rfl, ?_⟩
    intro entry member
    obtain ⟨event, isEvent, rfl⟩ := List.mem_map.mp member
    obtain ⟨token, isHit, rfl⟩ := List.mem_map.mp isEvent
    obtain ⟨stored, hit⟩ := List.mem_filter.mp isHit
    refine ⟨rfl, ?_⟩
    rintro _ _ ⟨⟩
    refine ⟨⟨stored, open_ token hit⟩, ?_⟩
    intro keyed row rowMember sameHash
    rcases Table.mem_updateWhere_cases rowMember with ⟨old, miss⟩ | ⟨old, oldMember, -, rfl⟩
    · obtain rfl := keyed.eq_of_key old stored sameHash
      rw [hit] at miss
      cases miss
    · obtain rfl : old = token := keyed.eq_of_key oldMember stored sameHash
      exact ⟨rfl, Option.some_ne_none now⟩
  · intro row member _
    obtain ⟨old, oldMember, same, -⟩ := from_ row member
    exact .inl ⟨old, oldMember, same⟩

namespace MovesTokens

/-- Storing a token that may be issued. -/
theorem store {userId : Option Guid} {type : VerificationTokenType} {lifetime : Duration}
    {report : VerificationToken → List Event}
    (silent : ∀ token, ∀ event ∈ report token, event.consumption? = none)
    (allowed : ∀ row : VerificationToken, row.type = .mfaChallenge → row.type = type →
      row.userId = userId → issued row) :
    MovesTokens services seen issued
      (VerificationTokens.store services userId type lifetime report) := by
  refine .bind .draw fun number => .bind .utcNow fun now => .bind .draw fun id =>
    .bind (.saveChanges ?_) fun _ => .pure _
  intro call start current input db relied saved _
  obtain ⟨⟨-, fresh, -⟩, rfl⟩ := Db.insertVerificationToken_eq_ok.mp saved
  exact ⟨insert rfl rfl fresh ⟨number, rfl⟩ (fun isTicket => allowed _ isTicket rfl rfl)
    (silent _), trivial⟩

theorem consumes (type : VerificationTokenType) (consumer : TokenConsumer) :
    ConsumesKept (.ticketing services seen issued) (fun _ _ => True) type consumer := by
  intro hash now requires
  unfold VerificationTokens.consume
  exact .execute fun _ _ _ _ _ _ => ⟨consume, trivial⟩

theorem cleans (now : Instant) :
    MovesTokens services seen issued
      (ExpiredAuthArtifactCleanupService.deleteVerificationTokensAsync services now) := by
  refine .bind (.query _) fun ids => .ite (.bind (.execute ?_) fun _ => .pure _) (.pure _)
  intro call start current input relied _
  exact ⟨remove rfl (fun _ member => nomatch member), trivial⟩

theorem deleteUser (user : User) :
    MovesTokens services seen issued (Action.saveChanges fun _ db => db.deleteUser user) := by
  refine .saveChanges ?_
  intro call start current input db relied saved _
  unfold Db.deleteUser at saved
  split at saved
  · cases saved
    exact ⟨remove rfl (fun _ member => nomatch member), trivial⟩
  · cases saved

/-- The save of a registration. -/
theorem addUser {user : User} {token : VerificationToken} (other : token.type ≠ .mfaChallenge)
    (drawn : ∃ number, token.tokenHash =
      services.tokenGenerator.hash (services.tokenGenerator.newOpaqueToken number)) :
    MovesTokens services seen issued
      (Action.saveChanges (RegistrationService.addUser services.lower user token)
      fun _ => [.userRegistered user, .verificationTokenIssued token]) := by
  refine .saveChanges ?_
  intro call start current input db relied saved _
  obtain ⟨-, -, saved⟩ := bind_eq_ok.mp saved
  obtain ⟨withUser, userSaved, saved⟩ := bind_eq_ok.mp saved
  obtain ⟨withRole, roleSaved, saved⟩ := bind_eq_ok.mp saved
  obtain ⟨-, rfl⟩ := Db.insertUser_eq_ok.mp userSaved
  obtain ⟨-, rfl⟩ := Db.insertUserRole_eq_ok.mp roleSaved
  obtain ⟨⟨-, fresh, -⟩, rfl⟩ := Db.insertVerificationToken_eq_ok.mp saved
  refine ⟨insert rfl rfl fresh drawn (fun isTicket => absurd isTicket other) ?_, trivial⟩
  intro event member
  rcases List.mem_cons.mp member with rfl | later
  · rfl
  · rw [List.mem_singleton.mp later]
    rfl

end MovesTokens

/-! ### The operations -/

theorem takesTokens_moves : TakesTokens (.ticketing services seen issued)
    (fun _ _ => True) services where
  consumes := MovesTokens.consumes
  cleans := MovesTokens.cleans
  deletes := MovesTokens.deleteUser

theorem addsTokens_moves : AddsTokens (.ticketing services seen issued)
    (fun _ _ => True) services where
  stores _ _ _ _ other silent :=
    MovesTokens.store silent fun _ isTicket isType _ => absurd (isType.symm.trans isTicket) other
  registers _ _ other drawn := MovesTokens.addUser other drawn

/-- The operations that issue no ticket. -/
theorem ServiceOperation.movesTokens {fido2 : Fido2} (op : ServiceOperation)
    (other : ∀ http email password, op ≠ .login http email password) :
    MovesTokens services seen issued (op.program services fido2) := by
  have silent : ∀ event : Event, event.consumption? = none →
      ¬ event.consumption?.isSome = true := by
    intro event isNone isSome
    rw [isNone] at isSome
    cases isSome
  by_cases issuing : op.issues = true
  · exact op.keeps_adding silent addsTokens_moves issuing other
  · exact op.keeps_taking silent takesTokens_moves (Bool.eq_false_iff.mpr issuing)

end Steps

end AuthStartpack
