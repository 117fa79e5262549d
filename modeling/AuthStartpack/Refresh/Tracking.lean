import AuthStartpack.Refresh.Rotation

/-!
Owns what a save of tracked entities keeps, whatever the context has tracked
over failed attempts: it takes back no revocation, and it leaves every stored
refresh token its hash and its session. `Consistent` is what the attempts of
`RotateAsync` keep of their tracker.
-/

namespace AuthStartpack

/-- Sessions remain revoked, and none is added. -/
def SessionsStay (before after : List Session) : Prop :=
  ∀ later ∈ after, ∃ old ∈ before, old.id = later.id ∧
    (old.revokedAt ≠ none → later.revokedAt ≠ none)

/-- Refresh tokens remain, with their hash and their session. -/
def TokensStay (before after : List RefreshToken) : Prop :=
  ∀ old ∈ before, ∃ later ∈ after, later.tokenHash = old.tokenHash ∧ later.sessionId = old.sessionId

/-- What a save keeps whose new tokens have ids below `bound`. -/
structure SaveKeeps (bound : ℕ) (before after : Db) : Prop where
  sessions : SessionsStay before.sessions after.sessions
  sessionIds : after.sessions.map Session.id = before.sessions.map Session.id
  tokens : TokensStay before.refreshTokens after.refreshTokens
  hashes : Table.Keyed RefreshToken.tokenHash before.refreshTokens →
    Table.Keyed RefreshToken.tokenHash after.refreshTokens
  given : ∀ row ∈ after.refreshTokens,
    row.id < bound ∨ ∃ old ∈ before.refreshTokens, old.id = row.id

theorem SessionsStay.refl (sessions : List Session) : SessionsStay sessions sessions :=
  fun later member => ⟨later, member, rfl, id⟩

theorem SessionsStay.trans {first second third : List Session} (early : SessionsStay first second)
    (late : SessionsStay second third) : SessionsStay first third := by
  intro later member
  obtain ⟨middle, middleMember, same, revoked⟩ := late later member
  obtain ⟨old, oldMember, sameOld, revokedOld⟩ := early middle middleMember
  exact ⟨old, oldMember, sameOld.trans same, revoked ∘ revokedOld⟩

theorem TokensStay.refl (tokens : List RefreshToken) : TokensStay tokens tokens :=
  fun old member => ⟨old, member, rfl, rfl⟩

theorem TokensStay.trans {first second third : List RefreshToken} (early : TokensStay first second)
    (late : TokensStay second third) : TokensStay first third := by
  intro old member
  obtain ⟨middle, middleMember, hash, session⟩ := early old member
  obtain ⟨later, laterMember, laterHash, laterSession⟩ := late middle middleMember
  exact ⟨later, laterMember, laterHash.trans hash, laterSession.trans session⟩

theorem SessionsStay.updateWhere {pred : Session → Bool} {write : Session → Session}
    {sessions : List Session} (keepsId : ∀ row, (write row).id = row.id)
    (keeps : ∀ row, row.revokedAt ≠ none → (write row).revokedAt ≠ none) :
    SessionsStay sessions (Table.updateWhere pred write sessions) := by
  intro later member
  rcases Table.mem_updateWhere_cases member with ⟨old, -⟩ | ⟨old, oldMember, -, rfl⟩
  · exact ⟨later, old, rfl, id⟩
  · exact ⟨old, oldMember, (keepsId old).symm, keeps old⟩

theorem TokensStay.updateWhere {pred : RefreshToken → Bool} {write : RefreshToken → RefreshToken}
    {tokens : List RefreshToken}
    (keeps : ∀ row, (write row).tokenHash = row.tokenHash ∧ (write row).sessionId = row.sessionId) :
    TokensStay tokens (Table.updateWhere pred write tokens) := by
  intro old member
  cases hit : pred old with
  | false => exact ⟨old, Table.mem_updateWhere_of_not member hit, rfl, rfl⟩
  | true => exact ⟨write old, Table.mem_updateWhere_of_hit member hit, keeps old⟩

namespace SaveKeeps

variable {bound : ℕ}

/-- Where the refresh tokens are the same. -/
theorem of_sessions {before after : Db} (sessions : SessionsStay before.sessions after.sessions)
    (sessionIds : after.sessions.map Session.id = before.sessions.map Session.id)
    (tokens : after.refreshTokens = before.refreshTokens) : SaveKeeps bound before after := by
  refine ⟨sessions, sessionIds, ?_, ?_, ?_⟩
  · rw [tokens]
    exact .refl _
  · rw [tokens]
    exact id
  · intro row member
    rw [tokens] at member
    exact .inr ⟨row, member, rfl⟩

/-- Where only refresh tokens are written, and none is added. -/
theorem of_tokens {before after : Db} {pred : RefreshToken → Bool}
    {write : RefreshToken → RefreshToken} (sessions : after.sessions = before.sessions)
    (tokens : after.refreshTokens = Table.updateWhere pred write before.refreshTokens)
    (keeps : ∀ row, (write row).id = row.id ∧ (write row).tokenHash = row.tokenHash ∧
      (write row).sessionId = row.sessionId) : SaveKeeps bound before after := by
  refine ⟨by rw [sessions]; exact .refl _, by rw [sessions], ?_, ?_, ?_⟩
  · rw [tokens]
    exact TokensStay.updateWhere fun row => (keeps row).2
  · rw [tokens]
    exact fun keyed => keyed.updateWhere fun row => (keeps row).2.1
  · intro row member
    rw [tokens] at member
    rcases Table.mem_updateWhere_cases member with ⟨old, -⟩ | ⟨old, oldMember, -, rfl⟩
    · exact .inr ⟨row, old, rfl⟩
    · exact .inr ⟨old, oldMember, (keeps old).1.symm⟩

theorem refl (db : Db) : SaveKeeps bound db db := of_sessions (.refl _) rfl rfl

theorem trans {first second third : Db} (early : SaveKeeps bound first second)
    (late : SaveKeeps bound second third) : SaveKeeps bound first third := by
  refine ⟨early.sessions.trans late.sessions, late.sessionIds.trans early.sessionIds,
    early.tokens.trans late.tokens, late.hashes ∘ early.hashes, ?_⟩
  intro row member
  rcases late.given row member with below | ⟨middle, middleMember, same⟩
  · exact .inl below
  · rw [← same]
    exact early.given middle middleMember

theorem mono {before after : Db} (keeps : SaveKeeps bound before after) {larger : ℕ}
    (grown : bound ≤ larger) : SaveKeeps larger before after :=
  { keeps with
    given := fun row member => (keeps.given row member).imp_left (Nat.lt_of_lt_of_le · grown) }

/-- An UPDATE of a session that was not read revoked and taken back. -/
theorem of_updateSession {savedAt : Instant} {db after : Db} {original current : Session}
    (revocation : current.revokedAt = none → original.revokedAt = none)
    (saved : db.updateSession savedAt original current = .ok after) : SaveKeeps bound db after := by
  obtain ⟨-, rfl⟩ := Db.updateSession_eq_ok.mp saved
  refine .of_sessions (SessionsStay.updateWhere (fun _ => rfl) ?_)
    (Table.map_updateWhere fun _ => rfl) rfl
  intro row revoked
  simp only [Session.merge, changed]
  split
  · exact revoked
  · intro cleared
    exact absurd (cleared.trans (revocation cleared).symm) ‹_›

/-- An UPDATE of a refresh token that keeps its hash. -/
theorem of_updateRefreshToken {savedAt : Instant} {db after : Db} {original current : RefreshToken}
    (sameHash : current.tokenHash = original.tokenHash)
    (saved : db.updateRefreshToken savedAt original current = .ok after) :
    SaveKeeps bound db after := by
  obtain ⟨-, rfl⟩ := Db.updateRefreshToken_eq_ok.mp saved
  have keepsHash : ∀ row, (original.merge current savedAt row).tokenHash = row.tokenHash := by
    intro row
    simp [RefreshToken.merge, sameHash]
  exact .of_tokens rfl rfl fun row => ⟨rfl, keepsHash row, rfl⟩

/-- An INSERT of a refresh token that was given its id. -/
theorem of_insertRefreshToken {savedAt : Instant} {db after : Db} {row : RefreshToken}
    (given : row.id < bound) (saved : db.insertRefreshToken savedAt row = .ok after) :
    SaveKeeps bound db after := by
  obtain ⟨⟨-, freshHash, -⟩, rfl⟩ := Db.insertRefreshToken_eq_ok.mp saved
  refine ⟨.refl _, rfl, ?_, fun keyed => keyed.append freshHash, ?_⟩
  · intro old member
    exact ⟨old, List.mem_append_left _ member, rfl, rfl⟩
  · intro other member
    rcases List.mem_append.mp member with old | new
    · exact .inr ⟨other, old, rfl⟩
    · rw [List.mem_singleton.mp new]
      exact .inl given

end SaveKeeps

/-! ### Trackers -/

namespace Tracked

variable {ρ : Type} {key : ρ → Guid} {entries : List (Tracked ρ)} {row : ρ}

/-- The key of a tracked instance. -/
def keyOf (key : ρ → Guid) (entry : Tracked ρ) : Guid := key entry.current

theorem instanceOf_eq (keyed : Table.Keyed (keyOf key) entries) {entry : Tracked ρ}
    (member : entry ∈ entries) (same : keyOf key entry = key row) :
    instanceOf key row entries = entry.current := by
  have found := keyed.find?_key member
  rw [same] at found
  unfold instanceOf
  split
  case h_1 other first => exact congrArg Tracked.current (Option.some.inj (first.symm.trans found))
  case h_2 missing => exact nomatch missing.symm.trans found

theorem key_instanceOf : key (instanceOf key row entries) = key row := by
  unfold instanceOf
  split
  case h_1 entry found => simpa using List.find?_some found
  case h_2 => rfl

/-- A tracked instance stands for itself. -/
theorem instanceOf_self (keyed : Table.Keyed (keyOf key) entries)
    (tracked : ∃ entry ∈ entries, entry.current = row) : instanceOf key row entries = row := by
  obtain ⟨entry, member, rfl⟩ := tracked
  exact instanceOf_eq keyed member rfl

/-- The instance of a row that a query returned is tracked. -/
theorem tracked_instanceOf :
    ∃ entry ∈ resolve key row entries, entry.current = instanceOf key row
      (resolve key row entries) := by
  have present : ∃ entry ∈ resolve key row entries, key entry.current = key row := by
    unfold resolve
    split
    case isTrue found => simpa using found
    case isFalse missing => exact ⟨_, List.mem_append_right _ List.mem_cons_self, rfl⟩
  unfold instanceOf
  split
  case h_1 entry found => exact ⟨entry, List.mem_of_find?_eq_some found, rfl⟩
  case h_2 missing =>
    obtain ⟨entry, member, same⟩ := present
    exact absurd (decide_eq_true same) (List.find?_eq_none.mp missing entry member)

theorem keyed_resolve (keyed : Table.Keyed (keyOf key) entries) :
    Table.Keyed (keyOf key) (resolve key row entries) := by
  unfold resolve
  split
  case isTrue => exact keyed
  case isFalse missing =>
    refine keyed.append ?_
    intro other member same
    refine missing (List.any_eq_true.mpr ⟨other, member, ?_⟩)
    simpa [keyOf] using same

theorem keyed_assign (keyed : Table.Keyed (keyOf key) entries) :
    Table.Keyed (keyOf key) (assign key row entries) := by
  have keys : (assign key row entries).map (keyOf key) = entries.map (keyOf key) := by
    unfold assign
    rw [List.map_map]
    refine List.map_congr_left ?_
    intro entry _
    simp only [Function.comp_apply, keyOf]
    split
    · exact Eq.symm ‹_›
    · rfl
  unfold Table.Keyed
  rw [keys]
  exact keyed

theorem keyed_accepted (keyed : Table.Keyed (keyOf key) entries) :
    Table.Keyed (keyOf key) (entries.map accepted) := by
  unfold Table.Keyed
  rw [List.map_map]
  exact keyed

theorem mem_resolve {entry : Tracked ρ} (member : entry ∈ resolve key row entries) :
    entry ∈ entries ∨ entry = ⟨.unchanged, row, row⟩ := by
  unfold resolve at member
  split at member
  · exact .inl member
  · simpa using member

theorem mem_assign {entry : Tracked ρ} (member : entry ∈ assign key row entries) :
    (entry ∈ entries ∧ keyOf key entry ≠ key row) ∨
      ∃ old ∈ entries, keyOf key old = key row ∧ entry = { old with current := row } := by
  obtain ⟨old, oldMember, equal⟩ := List.mem_map.mp member
  by_cases hit : key old.current = key row
  · rw [if_pos hit] at equal
    exact .inr ⟨old, oldMember, hit, equal.symm⟩
  · rw [if_neg hit] at equal
    subst equal
    exact .inl ⟨oldMember, hit⟩

end Tracked

namespace ChangeTracker

/-- What the attempts of a call keep of their tracker, with ids below `bound`. -/
structure Consistent (bound : ℕ) (tracker : ChangeTracker) : Prop where
  sessionIds : Table.Keyed (Tracked.keyOf Session.id) tracker.sessions
  sessions : ∀ entry ∈ tracker.sessions, entry.state = .unchanged ∧
    (entry.current.revokedAt = none → entry.original.revokedAt = none)
  tokenIds : Table.Keyed (Tracked.keyOf RefreshToken.id) tracker.refreshTokens
  tokens : ∀ entry ∈ tracker.refreshTokens,
    entry.state = .unchanged → entry.current.tokenHash = entry.original.tokenHash
  given : ∀ entry ∈ tracker.refreshTokens, entry.current.id < bound

namespace Consistent

variable {bound : ℕ} {tracker : ChangeTracker}

theorem empty : Consistent bound {} where
  sessionIds := List.nodup_nil
  sessions _ member := absurd member List.not_mem_nil
  tokenIds := List.nodup_nil
  tokens _ member := absurd member List.not_mem_nil
  given _ member := absurd member List.not_mem_nil

theorem mono (consistent : Consistent bound tracker) {larger : ℕ} (grown : bound ≤ larger) :
    Consistent larger tracker :=
  { consistent with
    given := fun entry member => Nat.lt_of_lt_of_le (consistent.given entry member) grown }

theorem resolve (consistent : Consistent bound tracker) {token : RefreshToken} {session : Session}
    (given : token.id < bound) : Consistent bound (tracker.resolve token session) := by
  constructor
  case sessionIds => exact Tracked.keyed_resolve consistent.sessionIds
  case tokenIds => exact Tracked.keyed_resolve consistent.tokenIds
  case sessions =>
    intro entry member
    rcases Tracked.mem_resolve member with old | rfl
    · exact consistent.sessions entry old
    · exact ⟨rfl, id⟩
  case tokens =>
    intro entry member
    rcases Tracked.mem_resolve member with old | rfl
    · exact consistent.tokens entry old
    · exact fun _ => rfl
  case given =>
    intro entry member
    rcases Tracked.mem_resolve member with old | rfl
    · exact consistent.given entry old
    · exact given

/-- Assigning to the instance of a session, without taking a revocation back. -/
theorem assignSession (consistent : Consistent bound tracker) {row assigned : Session}
    (sameId : assigned.id = row.id)
    (revocation : assigned.revokedAt = none →
      (Tracked.instanceOf Session.id row tracker.sessions).revokedAt = none) :
    Consistent bound (tracker.assignSession assigned) := by
  refine { consistent with
    sessionIds := Tracked.keyed_assign consistent.sessionIds
    sessions := ?_ }
  intro entry member
  rcases Tracked.mem_assign member with ⟨old, -⟩ | ⟨old, oldMember, hit, rfl⟩
  · exact consistent.sessions entry old
  · obtain ⟨state, unrevoked⟩ := consistent.sessions old oldMember
    refine ⟨state, ?_⟩
    intro cleared
    have same := Tracked.instanceOf_eq consistent.sessionIds oldMember (hit.trans sameId)
    exact unrevoked (same ▸ revocation cleared)

/-- Assigning to the instance of a refresh token, without changing its hash. -/
theorem assignToken (consistent : Consistent bound tracker) {row assigned : RefreshToken}
    (sameId : assigned.id = row.id)
    (sameHash : assigned.tokenHash =
      (Tracked.instanceOf RefreshToken.id row tracker.refreshTokens).tokenHash) :
    Consistent bound (tracker.assignToken assigned) := by
  refine { consistent with
    tokenIds := Tracked.keyed_assign consistent.tokenIds, tokens := ?_, given := ?_ }
  · intro entry member unchanged
    rcases Tracked.mem_assign member with ⟨old, -⟩ | ⟨old, oldMember, hit, rfl⟩
    · exact consistent.tokens entry old unchanged
    · have same := Tracked.instanceOf_eq consistent.tokenIds oldMember (hit.trans sameId)
      rw [← consistent.tokens old oldMember unchanged, ← same]
      exact sameHash
  · intro entry member
    rcases Tracked.mem_assign member with ⟨old, -⟩ | ⟨old, oldMember, hit, rfl⟩
    · exact consistent.given entry old
    · have below := consistent.given old oldMember
      rw [show old.current.id = assigned.id from hit] at below
      exact below

theorem addToken (consistent : Consistent bound tracker) {token : RefreshToken}
    (drawn : bound ≤ token.id) : Consistent (token.id + 1) (tracker.addToken token) := by
  have grown : bound ≤ token.id + 1 := Nat.le_succ_of_le drawn
  refine { consistent.mono grown with tokenIds := ?_, tokens := ?_, given := ?_ }
  · refine consistent.tokenIds.append ?_
    intro other member same
    have below := consistent.given other member
    rw [show other.current.id = token.id from same] at below
    exact absurd drawn (Nat.not_le_of_lt below)
  · intro entry member
    rcases List.mem_append.mp member with old | new
    · exact consistent.tokens entry old
    · rw [List.mem_singleton.mp new]
      exact fun _ => rfl
  · intro entry member
    rcases List.mem_append.mp member with old | new
    · exact Nat.lt_of_lt_of_le (consistent.given entry old) grown
    · rw [List.mem_singleton.mp new]
      exact Nat.lt_succ_self _

theorem acceptAllChanges (consistent : Consistent bound tracker) :
    Consistent bound tracker.acceptAllChanges := by
  constructor
  case sessionIds => exact Tracked.keyed_accepted consistent.sessionIds
  case tokenIds => exact Tracked.keyed_accepted consistent.tokenIds
  case sessions =>
    intro entry member
    obtain ⟨old, -, rfl⟩ := List.mem_map.mp member
    exact ⟨rfl, id⟩
  case tokens =>
    intro entry member _
    obtain ⟨old, -, rfl⟩ := List.mem_map.mp member
    rfl
  case given =>
    intro entry member
    obtain ⟨old, oldMember, rfl⟩ := List.mem_map.mp member
    exact consistent.given old oldMember

/-- A save of a consistent tracker. -/
theorem changes_keeps (consistent : Consistent bound tracker) {savedAt : Instant} {db after : Db}
    (saved : tracker.changes savedAt db = .ok after) : SaveKeeps bound db after := by
  obtain ⟨middle, sessionsSaved, tokensSaved⟩ := bind_eq_ok.mp saved
  have sessions : SaveKeeps bound db middle := by
    refine foldlM_relates .refl .trans ?_ sessionsSaved
    intro entry member before after statement
    obtain ⟨state, revocation⟩ := consistent.sessions entry member
    rw [saveSession, state] at statement
    exact .of_updateSession revocation statement
  refine sessions.trans (foldlM_relates .refl .trans ?_ tokensSaved)
  intro entry member before after statement
  unfold saveToken at statement
  split at statement
  · exact .of_insertRefreshToken (consistent.given entry member) statement
  · exact .of_updateRefreshToken (consistent.tokens entry member ‹_›) statement

end Consistent

end ChangeTracker

end AuthStartpack
