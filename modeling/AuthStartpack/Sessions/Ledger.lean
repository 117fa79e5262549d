import AuthStartpack.Data.Entities
import AuthStartpack.Table.Rows
import Mathlib.Logic.Relation

/-!
Owns the abstract model of sessions and refresh tokens: a ledger, and the kinds
of entries that the services make in it. A session is opened, changes only in
ways that keep its identity, lifetime and revocation, and is forgotten after its
absolute expiry. A token is issued to a session for its whole lifetime, spent
once for a successor, expired early while unspent, and forgotten after its
expiry. The module does not own what the services do (`Sessions.Refinement`).
-/

namespace AuthStartpack

/-- `supply` bounds the ids given out so far, `clock` is the last reading. -/
structure Ledger where
  sessions : List Session
  tokens : List RefreshToken
  supply : ℕ
  clock : Instant

/-- What every statement leaves of a session row. -/
structure Session.Evolves (before after : Session) : Prop where
  id : after.id = before.id
  userId : after.userId = before.userId
  authenticationMethods : after.authenticationMethods = before.authenticationMethods
  absoluteExpiresAt : after.absoluteExpiresAt = before.absoluteExpiresAt
  revoked : before.revokedAt ≠ none → after.revokedAt ≠ none

theorem Session.Evolves.refl (session : Session) : session.Evolves session :=
  ⟨rfl, rfl, rfl, rfl, fun revoked => revoked⟩

/-- A row whose spending at `now` is recorded, with a link to its successor. -/
structure RefreshToken.SpentAs (now : Instant) (successor : Guid) (before after : RefreshToken) :
    Prop where
  id : after.id = before.id
  sessionId : after.sessionId = before.sessionId
  tokenHash : after.tokenHash = before.tokenHash
  expiresAt : after.expiresAt = before.expiresAt
  usedAt : after.usedAt = some now
  replacedByTokenId : after.replacedByTokenId = some successor

/-- A token as it is issued to a session. -/
structure RefreshToken.IssuedTo (session : Session) (token : RefreshToken) : Prop where
  owner : token.sessionId = session.id
  expiry : token.expiresAt = session.absoluteExpiresAt
  unused : token.usedAt = none
  unlinked : token.replacedByTokenId = none

/-- The token with its lifetime cut short. -/
def RefreshToken.expire (now : Instant) (token : RefreshToken) : RefreshToken :=
  { token with expiresAt := now }

namespace Ledger

/-- A row with this id and hash is new to the ledger; its id was given out since. -/
structure Fresh (before after : Ledger) (token : RefreshToken) : Prop where
  drawn : before.supply ≤ token.id
  given : token.id < after.supply
  hash : ∀ row ∈ before.tokens, row.tokenHash ≠ token.tokenHash

/-- The rotation of `stored`, judged at `now`. -/
structure Rotates (before after : Ledger) (stored successor : RefreshToken) (session : Session)
    (now : Instant) : Prop where
  member : stored ∈ before.tokens
  owner : session ∈ before.sessions
  owned : stored.sessionId = session.id
  begun : before.clock ≤ now
  unused : stored.usedAt = none
  live : session.revokedAt = none
  unexpired : now < stored.expiresAt
  issued : successor.IssuedTo session
  fresh : Fresh before after successor

/-- Which entries may be made: to which sessions a further token may be issued, and whether rows
may be forgotten. A session that nothing was drawn after may get its first token. -/
structure Policy where
  issues : Ledger → Session → Prop
  forgets : Prop
  latest : ∀ ledger session, ledger.supply = session.id + 1 → issues ledger session

/-- All entries. -/
def Policy.free : Policy := ⟨fun _ _ => True, True, fun _ _ _ => trivial⟩

/-- One entry of the ledger. Rows are forgotten by their primary keys. -/
inductive Change (policy : Policy) (before after : Ledger) : Prop
  | kept (sessions : after.sessions = before.sessions) (tokens : after.tokens = before.tokens)
  | evolved (write : Session → Session)
      (evolves : ∀ row ∈ before.sessions, row.Evolves (write row))
      (sessions : after.sessions = before.sessions.map write)
      (tokens : after.tokens = before.tokens)
  | opened (session : Session) (drawn : before.supply ≤ session.id)
      (given : session.id < after.supply)
      (sessions : after.sessions = before.sessions ++ [session])
      (tokens : after.tokens = before.tokens)
  | issued (session : Session) (token : RefreshToken) (owner : session ∈ before.sessions)
      (permitted : policy.issues before session) (issuedTo : token.IssuedTo session)
      (fresh : Fresh before after token) (sessions : after.sessions = before.sessions)
      (tokens : after.tokens = before.tokens ++ [token])
  | rotated (stored successor : RefreshToken) (session : Session) (now : Instant)
      (write : Session → Session) (spend : RefreshToken → RefreshToken)
      (rotates : Rotates before after stored successor session now)
      (evolves : ∀ row ∈ before.sessions, row.Evolves (write row))
      (keepsId : ∀ row, (spend row).id = row.id)
      (keepsSession : ∀ row, (spend row).sessionId = row.sessionId)
      (keepsHash : ∀ row, (spend row).tokenHash = row.tokenHash)
      (spends : RefreshToken.SpentAs now successor.id stored (spend stored))
      (sessions : after.sessions = before.sessions.map write)
      (tokens : after.tokens =
        Table.updateWhere (fun row => row.id = stored.id) spend before.tokens ++ [successor])
  | expired (pred : RefreshToken → Bool) (now : Instant)
      (outstanding : ∀ row, pred row = true → row.usedAt = none ∧ now < row.expiresAt)
      (reached : now ≤ after.clock)
      (sessions : after.sessions = before.sessions)
      (tokens : after.tokens = Table.updateWhere pred (RefreshToken.expire now) before.tokens)
  | forgotTokens (pred : RefreshToken → Bool) (permitted : policy.forgets)
      (elapsed : ∀ row ∈ before.tokens, pred row = true →
        ∃ named ∈ before.tokens, named.id = row.id ∧ named.expiresAt ≤ after.clock)
      (sessions : after.sessions = before.sessions)
      (tokens : after.tokens = Table.deleteWhere pred before.tokens)
  | forgotSessions (pred : Session → Bool) (permitted : policy.forgets)
      (elapsed : ∀ row ∈ before.sessions, pred row = true →
        ∃ named ∈ before.sessions, named.id = row.id ∧ named.absoluteExpiresAt ≤ after.clock)
      (sessions : after.sessions = Table.deleteWhere pred before.sessions)
      (tokens : after.tokens = Table.deleteWhere
        (fun token => before.sessions.any fun session =>
          session.id = token.sessionId && pred session) before.tokens)

/-- One entry, with time and ids going on. -/
structure Step (policy : Policy) (before after : Ledger) : Prop where
  supply : before.supply ≤ after.supply
  clock : before.clock ≤ after.clock
  change : Change policy before after

/-- Any number of entries. -/
abbrev Run (policy : Policy) : Ledger → Ledger → Prop := Relation.ReflTransGen (Step policy)

/-- What every entry keeps is kept by any number of them. -/
theorem Run.induct {policy : Policy} (holds : Ledger → Prop) {before after : Ledger}
    (run : Run policy before after) (initial : holds before)
    (step : ∀ earlier later, holds earlier → Step policy earlier later → holds later) :
    holds after := by
  induction run with
  | refl => exact initial
  | tail _ entry inductionHypothesis => exact step _ _ inductionHypothesis entry

theorem Run.supply {policy : Policy} {before after : Ledger} (run : Run policy before after) :
    before.supply ≤ after.supply := by
  induction run with
  | refl => exact Nat.le_refl _
  | tail _ entry inductionHypothesis => exact Nat.le_trans inductionHypothesis entry.supply

theorem Run.clock {policy : Policy} {before after : Ledger} (run : Run policy before after) :
    before.clock ≤ after.clock := by
  induction run with
  | refl => exact Int.le_refl _
  | tail _ entry inductionHypothesis => exact Int.le_trans inductionHypothesis entry.clock

/-! ### The invariant of every ledger -/

/-- A token never outlives its session. A spent one lives as long as its session; an unspent one
does too, or it has expired. -/
structure Lasting (clock : Instant) (session : Session) (token : RefreshToken) : Prop where
  bounded : token.expiresAt ≤ session.absoluteExpiresAt
  spent : token.usedAt ≠ none → token.expiresAt = session.absoluteExpiresAt
  unspent : token.usedAt = none →
    token.expiresAt = session.absoluteExpiresAt ∨ token.expiresAt ≤ clock

theorem Lasting.later {clock later : Instant} {session current : Session} {token : RefreshToken}
    (lasting : Lasting clock session token) (goesOn : clock ≤ later)
    (same : current.absoluteExpiresAt = session.absoluteExpiresAt) :
    Lasting later current token where
  bounded := same ▸ lasting.bounded
  spent used := (lasting.spent used).trans same.symm
  unspent unused := by
    rcases lasting.unspent unused with full | expired
    · exact .inl (full.trans same.symm)
    · exact .inr (Int.le_trans expired goesOn)

theorem Lasting.of_issued {clock : Instant} {session : Session} {token : RefreshToken}
    (issued : token.IssuedTo session) : Lasting clock session token where
  bounded := Int.le_of_eq issued.expiry
  spent used := absurd issued.unused used
  unspent _ := .inl issued.expiry

/-- What holds of the rows of a ledger. -/
structure Sound (ledger : Ledger) : Prop where
  sessionIds : Table.Keyed Session.id ledger.sessions
  tokenIds : Table.Keyed RefreshToken.id ledger.tokens
  tokenHashes : Table.Keyed RefreshToken.tokenHash ledger.tokens
  sessionSupply : ∀ session ∈ ledger.sessions, session.id < ledger.supply
  tokenSupply : ∀ token ∈ ledger.tokens, token.id < ledger.supply
  owned : ∀ token ∈ ledger.tokens, ∃ session ∈ ledger.sessions, session.id = token.sessionId
  lasting : ∀ token ∈ ledger.tokens, ∀ session ∈ ledger.sessions, session.id = token.sessionId →
    Lasting ledger.clock session token

section Sound

variable {before after : Ledger}

/-- The sessions evolve, and the tokens stay. -/
theorem Sound.evolve {write : Session → Session} (sound : Sound before)
    (supply : before.supply ≤ after.supply) (clock : before.clock ≤ after.clock)
    (evolves : ∀ row ∈ before.sessions, row.Evolves (write row))
    (sessions : after.sessions = before.sessions.map write)
    (tokens : after.tokens = before.tokens) : Sound after := by
  have ids : after.sessions.map Session.id = before.sessions.map Session.id := by
    rw [sessions, List.map_map]
    exact List.map_congr_left fun row member => (evolves row member).id
  have origin : ∀ session ∈ after.sessions, ∃ row ∈ before.sessions, row.Evolves session := by
    intro session member
    rw [sessions] at member
    obtain ⟨row, rowMember, rfl⟩ := List.mem_map.mp member
    exact ⟨row, rowMember, evolves row rowMember⟩
  constructor
  case sessionIds =>
    unfold Table.Keyed
    rw [ids]
    exact sound.sessionIds
  case tokenIds =>
    rw [tokens]
    exact sound.tokenIds
  case tokenHashes =>
    rw [tokens]
    exact sound.tokenHashes
  case sessionSupply =>
    intro session member
    obtain ⟨row, rowMember, evolved⟩ := origin session member
    rw [evolved.id]
    exact Nat.lt_of_lt_of_le (sound.sessionSupply row rowMember) supply
  case tokenSupply =>
    intro token member
    rw [tokens] at member
    exact Nat.lt_of_lt_of_le (sound.tokenSupply token member) supply
  case owned =>
    intro token member
    rw [tokens] at member
    obtain ⟨row, rowMember, owns⟩ := sound.owned token member
    refine ⟨write row, ?_, (evolves row rowMember).id.trans owns⟩
    rw [sessions]
    exact List.mem_map_of_mem rowMember
  case lasting =>
    intro token member session sessionMember owns
    rw [tokens] at member
    obtain ⟨row, rowMember, evolved⟩ := origin session sessionMember
    exact (sound.lasting token member row rowMember (evolved.id.symm.trans owns)).later clock
      evolved.absoluteExpiresAt

theorem Sound.open {session : Session} (sound : Sound before)
    (supply : before.supply ≤ after.supply) (clock : before.clock ≤ after.clock)
    (drawn : before.supply ≤ session.id) (given : session.id < after.supply)
    (sessions : after.sessions = before.sessions ++ [session])
    (tokens : after.tokens = before.tokens) : Sound after := by
  have fresh : ∀ row ∈ before.sessions, row.id ≠ session.id := by
    intro row member same
    have below := sound.sessionSupply row member
    rw [same] at below
    exact Nat.not_lt.mpr drawn below
  constructor
  case sessionIds =>
    rw [sessions]
    exact sound.sessionIds.append fresh
  case tokenIds =>
    rw [tokens]
    exact sound.tokenIds
  case tokenHashes =>
    rw [tokens]
    exact sound.tokenHashes
  case sessionSupply =>
    intro row member
    rw [sessions] at member
    rcases List.mem_append.mp member with old | new
    · exact Nat.lt_of_lt_of_le (sound.sessionSupply row old) supply
    · rw [List.mem_singleton.mp new]
      exact given
  case tokenSupply =>
    intro token member
    rw [tokens] at member
    exact Nat.lt_of_lt_of_le (sound.tokenSupply token member) supply
  case owned =>
    intro token member
    rw [tokens] at member
    obtain ⟨row, rowMember, owns⟩ := sound.owned token member
    refine ⟨row, ?_, owns⟩
    rw [sessions]
    exact List.mem_append_left _ rowMember
  case lasting =>
    intro token member row rowMember owns
    rw [tokens] at member
    rw [sessions] at rowMember
    rcases List.mem_append.mp rowMember with old | new
    · exact (sound.lasting token member row old owns).later clock rfl
    · obtain ⟨owner, ownerMember, ownerId⟩ := sound.owned token member
      rw [List.mem_singleton.mp new] at owns
      exact absurd (ownerId.trans owns.symm) (fresh owner ownerMember)

/-- A fresh token is added to a session. -/
theorem Sound.issue {session : Session} {token : RefreshToken} (sound : Sound before)
    (supply : before.supply ≤ after.supply) (clock : before.clock ≤ after.clock)
    (owner : session ∈ before.sessions) (issuedTo : token.IssuedTo session)
    (fresh : Fresh before after token) (sessions : after.sessions = before.sessions)
    (tokens : after.tokens = before.tokens ++ [token]) : Sound after := by
  have freshId : ∀ row ∈ before.tokens, row.id ≠ token.id := by
    intro row member same
    have below := sound.tokenSupply row member
    rw [same] at below
    exact Nat.not_lt.mpr fresh.drawn below
  constructor
  case sessionIds =>
    rw [sessions]
    exact sound.sessionIds
  case tokenIds =>
    rw [tokens]
    exact sound.tokenIds.append freshId
  case tokenHashes =>
    rw [tokens]
    exact sound.tokenHashes.append fresh.hash
  case sessionSupply =>
    intro row member
    rw [sessions] at member
    exact Nat.lt_of_lt_of_le (sound.sessionSupply row member) supply
  case tokenSupply =>
    intro row member
    rw [tokens] at member
    rcases List.mem_append.mp member with old | new
    · exact Nat.lt_of_lt_of_le (sound.tokenSupply row old) supply
    · rw [List.mem_singleton.mp new]
      exact fresh.given
  case owned =>
    intro row member
    rw [sessions]
    rw [tokens] at member
    rcases List.mem_append.mp member with old | new
    · exact sound.owned row old
    · rw [List.mem_singleton.mp new]
      exact ⟨session, owner, issuedTo.owner.symm⟩
  case lasting =>
    intro row member other otherMember owns
    rw [sessions] at otherMember
    rw [tokens] at member
    rcases List.mem_append.mp member with old | new
    · exact (sound.lasting row old other otherMember owns).later clock rfl
    · rw [List.mem_singleton.mp new] at owns ⊢
      have same : other = session :=
        sound.sessionIds.eq_of_key otherMember owner (owns.trans issuedTo.owner)
      rw [same]
      exact .of_issued issuedTo

/-- Tokens are rewritten in place. -/
theorem Sound.rewrite {pred : RefreshToken → Bool} {write : RefreshToken → RefreshToken}
    (sound : Sound before) (supply : before.supply ≤ after.supply)
    (clock : before.clock ≤ after.clock) (id : ∀ row, (write row).id = row.id)
    (sessionId : ∀ row, (write row).sessionId = row.sessionId)
    (tokenHash : ∀ row, (write row).tokenHash = row.tokenHash)
    (keeps : ∀ row ∈ before.tokens, ∀ session ∈ before.sessions, session.id = row.sessionId →
      pred row = true → Lasting after.clock session (write row))
    (sessions : after.sessions = before.sessions)
    (tokens : after.tokens = Table.updateWhere pred write before.tokens) : Sound after := by
  have origin : ∀ token ∈ after.tokens, ∃ row ∈ before.tokens, token.id = row.id ∧
      token.sessionId = row.sessionId ∧ (token = row ∨ pred row = true ∧ token = write row) := by
    intro token member
    rw [tokens] at member
    rcases Table.mem_updateWhere_cases member with ⟨old, -⟩ | ⟨row, rowMember, hit, rfl⟩
    · exact ⟨token, old, rfl, rfl, .inl rfl⟩
    · exact ⟨row, rowMember, id row, sessionId row, .inr ⟨hit, rfl⟩⟩
  constructor
  case sessionIds =>
    rw [sessions]
    exact sound.sessionIds
  case tokenIds =>
    rw [tokens]
    exact sound.tokenIds.updateWhere id
  case tokenHashes =>
    rw [tokens]
    exact sound.tokenHashes.updateWhere tokenHash
  case sessionSupply =>
    intro row member
    rw [sessions] at member
    exact Nat.lt_of_lt_of_le (sound.sessionSupply row member) supply
  case tokenSupply =>
    intro token member
    obtain ⟨row, rowMember, sameId, -⟩ := origin token member
    rw [sameId]
    exact Nat.lt_of_lt_of_le (sound.tokenSupply row rowMember) supply
  case owned =>
    intro token member
    obtain ⟨row, rowMember, -, sameSession, -⟩ := origin token member
    rw [sessions, sameSession]
    exact sound.owned row rowMember
  case lasting =>
    intro token member session sessionMember owns
    obtain ⟨row, rowMember, -, sameSession, rewritten⟩ := origin token member
    rw [sessions] at sessionMember
    rw [sameSession] at owns
    rcases rewritten with rfl | ⟨hit, rfl⟩
    · exact (sound.lasting token rowMember session sessionMember owns).later clock rfl
    · exact keeps row rowMember session sessionMember owns hit

/-- Rows are removed, and no token loses its session. -/
theorem Sound.forget (sound : Sound before) (supply : before.supply ≤ after.supply)
    (clock : before.clock ≤ after.clock) (sessions : after.sessions.Sublist before.sessions)
    (tokens : after.tokens.Sublist before.tokens)
    (owned : ∀ token ∈ after.tokens, ∀ session ∈ before.sessions, session.id = token.sessionId →
      session ∈ after.sessions) : Sound after where
  sessionIds := (sessions.map Session.id).nodup sound.sessionIds
  tokenIds := (tokens.map RefreshToken.id).nodup sound.tokenIds
  tokenHashes := (tokens.map RefreshToken.tokenHash).nodup sound.tokenHashes
  sessionSupply session member :=
    Nat.lt_of_lt_of_le (sound.sessionSupply session (sessions.subset member)) supply
  tokenSupply token member :=
    Nat.lt_of_lt_of_le (sound.tokenSupply token (tokens.subset member)) supply
  owned token member := by
    obtain ⟨session, sessionMember, owns⟩ := sound.owned token (tokens.subset member)
    exact ⟨session, owned token member session sessionMember owns, owns⟩
  lasting token member session sessionMember owns :=
    (sound.lasting token (tokens.subset member) session (sessions.subset sessionMember) owns).later
      clock rfl

/-- The spending of a token keeps what is known of its expiry. -/
theorem lasting_spent {stored spent : RefreshToken} {session : Session} {now : Instant}
    {successor : Guid} (lasting : Lasting before.clock session stored)
    (unused : stored.usedAt = none) (begun : before.clock ≤ now)
    (unexpired : now < stored.expiresAt)
    (spends : RefreshToken.SpentAs now successor stored spent) {clock : Instant} :
    Lasting clock session spent where
  bounded := spends.expiresAt ▸ lasting.bounded
  spent _ := by
    rw [spends.expiresAt]
    rcases lasting.unspent unused with full | expired
    · exact full
    · exact absurd (Int.lt_of_le_of_lt (Int.le_trans expired begun) unexpired) (Int.lt_irrefl _)
  unspent unspent := by
    rw [spends.usedAt] at unspent
    cases unspent

theorem Sound.step {policy : Policy} (sound : Sound before) (step : Step policy before after) :
    Sound after := by
  obtain ⟨supply, clock, change⟩ := step
  cases change with
  | kept sessions tokens =>
      have evolves : ∀ row ∈ before.sessions, row.Evolves (id row) := fun row _ => .refl row
      refine sound.evolve supply clock evolves ?_ tokens
      rw [sessions, List.map_id]
  | evolved write evolves sessions tokens =>
      exact sound.evolve supply clock evolves sessions tokens
  | opened session drawn given sessions tokens =>
      exact sound.open supply clock drawn given sessions tokens
  | issued session token owner permitted issuedTo fresh sessions tokens =>
      exact sound.issue supply clock owner issuedTo fresh sessions tokens
  | rotated stored successor session now write spend rotates evolves keepsId keepsSession keepsHash
      spends sessions tokens =>
      -- The commit of a rotation is three entries: sessions evolve, the token is spent, and its
      -- successor is issued.
      let slid : Ledger := { before with sessions := before.sessions.map write }
      let marked : Ledger := { slid with
        tokens := Table.updateWhere (fun row => row.id = stored.id) spend before.tokens }
      have slidSound : Sound slid :=
        sound.evolve (Nat.le_refl _) (Int.le_refl _) evolves rfl rfl
      have markedSound : Sound marked := by
        refine slidSound.rewrite (Nat.le_refl _) (Int.le_refl _) keepsId keepsSession keepsHash ?_
          rfl rfl
        intro row member owner ownerMember owns hit
        have same : row = stored :=
          sound.tokenIds.eq_of_key member rotates.member (by simpa using hit)
        rw [same] at owns ⊢
        exact lasting_spent (slidSound.lasting stored rotates.member owner ownerMember owns)
          rotates.unused rotates.begun rotates.unexpired spends
      refine markedSound.issue supply clock
        (List.mem_map_of_mem rotates.owner) ?_ ?_ sessions tokens
      · have evolved := evolves session rotates.owner
        exact ⟨rotates.issued.owner.trans evolved.id.symm,
          rotates.issued.expiry.trans evolved.absoluteExpiresAt.symm, rotates.issued.unused,
          rotates.issued.unlinked⟩
      · refine ⟨rotates.fresh.drawn, rotates.fresh.given, ?_⟩
        intro row member same
        have column := List.mem_map_of_mem (f := RefreshToken.tokenHash) member
        rw [Table.map_updateWhere keepsHash] at column
        obtain ⟨other, otherMember, otherHash⟩ := List.mem_map.mp column
        exact rotates.fresh.hash other otherMember (otherHash.trans same)
  | expired pred now outstanding reached sessions tokens =>
      have id : ∀ row, (RefreshToken.expire now row).id = row.id := fun _ => rfl
      refine sound.rewrite supply clock id (fun _ => rfl) (fun _ => rfl) ?_ sessions tokens
      intro row member session sessionMember owns hit
      obtain ⟨unused, later⟩ := outstanding row hit
      have bounded := (sound.lasting row member session sessionMember owns).bounded
      exact ⟨Int.le_of_lt (Int.lt_of_lt_of_le later bounded), fun used => absurd unused used,
        fun _ => .inr reached⟩
  | forgotTokens pred permitted elapsed sessions tokens =>
      refine sound.forget supply clock ?_ ?_ ?_
      · rw [sessions]
      · rw [tokens]
        exact List.filter_sublist
      · intro token member session sessionMember owns
        rw [sessions]
        exact sessionMember
  | forgotSessions pred permitted elapsed sessions tokens =>
      refine sound.forget supply clock ?_ ?_ ?_
      · rw [sessions]
        exact List.filter_sublist
      · rw [tokens]
        exact List.filter_sublist
      · intro token member session sessionMember owns
        rw [tokens, Table.mem_deleteWhere, List.any_eq_false] at member
        rw [sessions, Table.mem_deleteWhere]
        refine ⟨sessionMember, ?_⟩
        have survives := member.2 session sessionMember
        simpa [owns] using survives

theorem Sound.run {policy : Policy} (sound : Sound before) (run : Run policy before after) :
    Sound after :=
  run.induct Sound sound fun _ _ holds step => holds.step step

end Sound

/-! ### What is settled about a session -/

/-- The session with this id has the property if it is there, and no other will get the id. -/
def Settled (sessionId : Guid) (property : Session → Prop) (ledger : Ledger) : Prop :=
  sessionId < ledger.supply ∧
    ∀ session ∈ ledger.sessions, session.id = sessionId → property session

section Settled

variable {policy : Policy} {before after : Ledger} {sessionId : Guid} {property : Session → Prop}

theorem Settled.step
    (keeps : ∀ row later, Session.Evolves row later → property row → property later)
    (step : Step policy before after) (settled : Settled sessionId property before) :
    Settled sessionId property after := by
  obtain ⟨bound, holds⟩ := settled
  refine ⟨Nat.lt_of_lt_of_le bound step.supply, ?_⟩
  have evolved : ∀ write : Session → Session, (∀ row ∈ before.sessions, row.Evolves (write row)) →
      after.sessions = before.sessions.map write →
      ∀ session ∈ after.sessions, session.id = sessionId → property session := by
    intro write evolves sessions session member same
    rw [sessions] at member
    obtain ⟨row, rowMember, rfl⟩ := List.mem_map.mp member
    have evolution := evolves row rowMember
    exact keeps row _ evolution (holds row rowMember (evolution.id.symm.trans same))
  have older : (∀ session ∈ after.sessions, session ∈ before.sessions) →
      ∀ session ∈ after.sessions, session.id = sessionId → property session :=
    fun subset session member same => holds session (subset session member) same
  cases step.change with
  | kept sessions tokens => exact older fun session member => by rwa [sessions] at member
  | evolved write evolves sessions tokens => exact evolved write evolves sessions
  | opened opened drawn given sessions tokens =>
      intro session member same
      rw [sessions] at member
      rcases List.mem_append.mp member with old | new
      · exact holds session old same
      · rw [List.mem_singleton.mp new] at same
        rw [same] at drawn
        exact absurd bound (Nat.not_lt.mpr drawn)
  | issued issuer issued issuerMember permitted issuedTo fresh sessions tokens =>
      exact older fun session member => by rwa [sessions] at member
  | rotated stored successor rotating now write spend rotates evolves keepsId keepsSession keepsHash
      spends sessions tokens => exact evolved write evolves sessions
  | expired pred now outstanding reached sessions tokens =>
      exact older fun session member => by rwa [sessions] at member
  | forgotTokens pred permitted elapsed sessions tokens =>
      exact older fun session member => by rwa [sessions] at member
  | forgotSessions pred permitted elapsed sessions tokens =>
      exact older fun session member => by
        rw [sessions, Table.mem_deleteWhere] at member
        exact member.1

theorem Settled.run (keeps : ∀ row later, Session.Evolves row later → property row → property later)
    (run : Run policy before after) (settled : Settled sessionId property before) :
    Settled sessionId property after :=
  run.induct (Settled sessionId property) settled fun _ _ holds step => holds.step keeps step

/-- A session of a sound ledger settles what evolution keeps. -/
theorem Sound.settled (sound : Sound before) {session : Session}
    (member : session ∈ before.sessions)
    (holds : property session) : Settled session.id property before :=
  ⟨sound.sessionSupply session member, fun _ rowMember same =>
    sound.sessionIds.eq_of_key member rowMember same.symm ▸ holds⟩

end Settled

end Ledger

end AuthStartpack
