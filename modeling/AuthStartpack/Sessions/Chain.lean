import AuthStartpack.Sessions.ReuseDetection
import Mathlib.Data.Set.Insert

/-!
Owns the chain of refresh tokens of a session. Where a session gets its first
token as it is opened and every further one by a rotation, its tokens form one
chain, in the order in which their ids were drawn: each is linked to the next,
and only the newest is unspent. Cleanup removes rows of a chain and leaves the
links of the others.
-/

namespace AuthStartpack

/-- The same token, whatever its lifetime. -/
structure RefreshToken.Alike (row later : RefreshToken) : Prop where
  id : later.id = row.id
  sessionId : later.sessionId = row.sessionId
  replacedByTokenId : later.replacedByTokenId = row.replacedByTokenId
  usedAt : later.usedAt = row.usedAt

namespace Ledger

/-- Sessions get a token of their own only as they are opened, and no row is forgotten. -/
def Policy.chained : Policy where
  issues ledger session := ledger.supply = session.id + 1
  forgets := False
  latest _ _ last := last

/-- The tokens of a session among these rows form this chain of ids. -/
structure Linked (rows : Set RefreshToken) (sessionId : Guid) (chain : List Guid) : Prop where
  increasing : chain.Pairwise (· < ·)
  complete : ∀ id, id ∈ chain ↔ ∃ row ∈ rows, row.sessionId = sessionId ∧ row.id = id
  links : ∀ row ∈ rows, row.sessionId = sessionId → ∃ older newer,
    chain = older ++ row.id :: newer ∧ row.replacedByTokenId = newer.head? ∧
      (row.usedAt = none ↔ newer = [])

section Linked

variable {rows after : Set RefreshToken} {sessionId : Guid} {chain : List Guid}

/-- Rows of other sessions do not matter. -/
theorem Linked.congr (linked : Linked rows sessionId chain)
    (same : ∀ row, row.sessionId = sessionId → (row ∈ after ↔ row ∈ rows)) :
    Linked after sessionId chain where
  increasing := linked.increasing
  complete id := by
    rw [linked.complete]
    constructor
    · rintro ⟨row, member, owns, named⟩
      exact ⟨row, (same row owns).mpr member, owns, named⟩
    · rintro ⟨row, member, owns, named⟩
      exact ⟨row, (same row owns).mp member, owns, named⟩
  links row member owns := linked.links row ((same row owns).mp member) owns

/-- Neither does the lifetime of a row. -/
theorem Linked.rewrite (linked : Linked rows sessionId chain)
    (forth : ∀ row ∈ rows, ∃ later ∈ after, row.Alike later)
    (back : ∀ later ∈ after, ∃ row ∈ rows, row.Alike later) : Linked after sessionId chain where
  increasing := linked.increasing
  complete id := by
    rw [linked.complete]
    constructor
    · rintro ⟨row, member, owns, named⟩
      obtain ⟨later, laterMember, alike⟩ := forth row member
      exact ⟨later, laterMember, alike.sessionId.trans owns, alike.id.trans named⟩
    · rintro ⟨later, laterMember, owns, named⟩
      obtain ⟨row, member, alike⟩ := back later laterMember
      exact ⟨row, member, alike.sessionId.symm.trans owns, alike.id.symm.trans named⟩
  links later laterMember owns := by
    obtain ⟨row, member, alike⟩ := back later laterMember
    rw [alike.id, alike.replacedByTokenId, alike.usedAt]
    exact linked.links row member (alike.sessionId.symm.trans owns)

/-- The first token of a session. -/
theorem Linked.begin {token : RefreshToken} (unused : token.usedAt = none)
    (unlinked : token.replacedByTokenId = none)
    (only : ∀ row, row.sessionId = token.sessionId → (row ∈ rows ↔ row = token)) :
    Linked rows token.sessionId [token.id] where
  increasing := List.pairwise_singleton _ _
  complete id := by
    rw [List.mem_singleton]
    constructor
    · rintro rfl
      exact ⟨token, (only token rfl).mpr rfl, rfl, rfl⟩
    · rintro ⟨row, member, owns, rfl⟩
      rw [(only row owns).mp member]
  links row member owns := by
    obtain rfl := (only row owns).mp member
    exact ⟨[], [], rfl, unlinked, ⟨fun _ => rfl, fun _ => unused⟩⟩

/-- The newest token is spent for a successor. -/
theorem Linked.extend {stored spent successor : RefreshToken} {now : Instant}
    (linked : Linked rows stored.sessionId chain) (member : stored ∈ rows)
    (unused : stored.usedAt = none)
    (spends : RefreshToken.SpentAs now successor.id stored spent)
    (owner : successor.sessionId = stored.sessionId) (unspent : successor.usedAt = none)
    (unlinked : successor.replacedByTokenId = none) (newest : ∀ row ∈ rows, row.id < successor.id)
    (members : ∀ row, row ∈ after ↔
      row = spent ∨ row = successor ∨ row ∈ rows ∧ row.id ≠ stored.id) :
    Linked after stored.sessionId (chain ++ [successor.id]) := by
  obtain ⟨older, newer, split, -, ending⟩ := linked.links stored member rfl
  obtain rfl := ending.mp unused
  constructor
  case increasing =>
    rw [List.pairwise_append]
    refine ⟨linked.increasing, List.pairwise_singleton _ _, ?_⟩
    intro id idMember last lastMember
    obtain ⟨row, rowMember, -, rfl⟩ := (linked.complete id).mp idMember
    rw [List.mem_singleton.mp lastMember]
    exact newest row rowMember
  case complete =>
    intro id
    rw [List.mem_append, List.mem_singleton, linked.complete]
    constructor
    · rintro (⟨row, rowMember, owns, rfl⟩ | rfl)
      · by_cases same : row.id = stored.id
        · exact ⟨spent, (members spent).mpr (.inl rfl), spends.sessionId, spends.id.trans same.symm⟩
        · exact ⟨row, (members row).mpr (.inr (.inr ⟨rowMember, same⟩)), owns, rfl⟩
      · exact ⟨successor, (members successor).mpr (.inr (.inl rfl)), owner, rfl⟩
    · rintro ⟨row, rowMember, owns, rfl⟩
      rcases (members row).mp rowMember with rfl | rfl | ⟨old, -⟩
      · exact .inl ⟨stored, member, rfl, spends.id.symm⟩
      · exact .inr rfl
      · exact .inl ⟨row, old, owns, rfl⟩
  case links =>
    intro row rowMember owns
    rcases (members row).mp rowMember with rfl | rfl | ⟨old, other⟩
    · refine ⟨older, [successor.id], ?_, spends.replacedByTokenId, ?_⟩
      · rw [split, spends.id, List.append_assoc]
        rfl
      · rw [spends.usedAt]
        exact ⟨nofun, nofun⟩
    · exact ⟨chain, [], rfl, unlinked, ⟨fun _ => rfl, fun _ => unspent⟩⟩
    · -- An older token: something follows it already.
      obtain ⟨before, following, where', link, use⟩ := linked.links row old owns
      have continues : following ≠ [] := by
        rintro rfl
        have sameEnd := List.append_inj_right' (where'.symm.trans split) rfl
        exact other (List.singleton_inj.mp sameEnd)
      refine ⟨before, following ++ [successor.id], ?_, ?_, ?_⟩
      · rw [where', List.append_assoc]
        rfl
      · rw [link, List.head?_append_of_ne_nil _ continues]
      · rw [use]
        simp [continues]

end Linked

/-- The tokens of the ledger, and those that were removed from it. -/
def rows (removed : Set RefreshToken) (ledger : Ledger) : Set RefreshToken :=
  removed ∪ {row | row ∈ ledger.tokens}

/-- Counting the removed rows, the tokens of every session form a chain. -/
structure Woven (removed : Set RefreshToken) (ledger : Ledger) : Prop where
  apart : ∀ row ∈ ledger.tokens, row ∉ removed
  ids : ∀ left ∈ ledger.rows removed, ∀ right ∈ ledger.rows removed, left.id = right.id →
    left = right
  later : ∀ row ∈ ledger.rows removed, row.sessionId < row.id
  given : ∀ row ∈ ledger.rows removed, row.id < ledger.supply
  chains : ∀ sessionId, ∃ chain, Linked (ledger.rows removed) sessionId chain

section Woven

variable {removed : Set RefreshToken} {before after : Ledger}

theorem Woven.keep (woven : Woven removed before) (supply : before.supply ≤ after.supply)
    (tokens : after.tokens = before.tokens) : Woven removed after := by
  have same : after.rows removed = before.rows removed := by
    unfold rows
    rw [tokens]
  constructor
  · rw [tokens]
    exact woven.apart
  · rw [same]
    exact woven.ids
  · rw [same]
    exact woven.later
  · rw [same]
    intro row member
    exact Nat.lt_of_lt_of_le (woven.given row member) supply
  · rw [same]
    exact woven.chains

theorem Woven.issue {session : Session} {token : RefreshToken} (woven : Woven removed before)
    (last : before.supply = session.id + 1) (issuedTo : token.IssuedTo session)
    (drawn : before.supply ≤ token.id) (given : token.id < after.supply)
    (tokens : after.tokens = before.tokens ++ [token]) : Woven removed after := by
  have members : ∀ row, row ∈ after.rows removed ↔ row ∈ before.rows removed ∨ row = token := by
    intro row
    simp only [rows, tokens, Set.mem_union, Set.mem_ofPred_eq, List.mem_append, List.mem_singleton,
      or_assoc]
  have fresh : ∀ row ∈ before.rows removed, row.id < token.id :=
    fun row member => Nat.lt_of_lt_of_le (woven.given row member) drawn
  -- Nothing was drawn since the session was opened, so it owns no row yet.
  have unowned : ∀ row ∈ before.rows removed, row.sessionId ≠ session.id := by
    intro row member owns
    have above := woven.later row member
    have below := woven.given row member
    rw [owns] at above
    rw [last] at below
    exact Nat.not_lt.mpr (Nat.le_of_lt_succ below) above
  constructor
  case apart =>
    intro row member inRemoved
    rw [tokens] at member
    rcases List.mem_append.mp member with old | new
    · exact woven.apart row old inRemoved
    · rw [List.mem_singleton.mp new] at inRemoved
      exact Nat.lt_irrefl _ (fresh token (.inl inRemoved))
  case ids =>
    intro left leftMember right rightMember same
    rcases (members left).mp leftMember with leftOld | rfl <;>
      rcases (members right).mp rightMember with rightOld | rfl
    · exact woven.ids left leftOld right rightOld same
    · exact absurd same (Nat.ne_of_lt (fresh left leftOld))
    · exact absurd same.symm (Nat.ne_of_lt (fresh right rightOld))
    · rfl
  case later =>
    intro row member
    rcases (members row).mp member with old | rfl
    · exact woven.later row old
    · rw [issuedTo.owner]
      refine Nat.lt_of_lt_of_le ?_ drawn
      rw [last]
      exact Nat.lt_succ_self _
  case given =>
    intro row member
    rcases (members row).mp member with old | rfl
    · exact Nat.lt_trans (fresh row old) given
    · exact given
  case chains =>
    intro sessionId
    by_cases own : sessionId = token.sessionId
    · subst own
      refine ⟨[token.id], .begin issuedTo.unused issuedTo.unlinked ?_⟩
      intro row owns
      rw [members]
      refine ⟨fun member => member.resolve_left fun old => ?_, .inr⟩
      exact unowned row old (owns.trans issuedTo.owner)
    · obtain ⟨chain, linked⟩ := woven.chains sessionId
      refine ⟨chain, linked.congr ?_⟩
      intro row owns
      rw [members]
      refine ⟨fun member => member.resolve_right ?_, .inl⟩
      rintro rfl
      exact own owns.symm

theorem Woven.expire {pred : RefreshToken → Bool} {now : Instant} (woven : Woven removed before)
    (supply : before.supply ≤ after.supply)
    (tokens : after.tokens = Table.updateWhere pred (RefreshToken.expire now) before.tokens) :
    Woven removed after := by
  have alike : ∀ row : RefreshToken, row.Alike (if pred row then row.expire now else row) := by
    intro row
    split <;> exact ⟨rfl, rfl, rfl, rfl⟩
  have origin : ∀ later ∈ after.tokens,
      ∃ row ∈ before.tokens, later = if pred row then row.expire now else row := by
    intro later member
    rw [tokens] at member
    obtain ⟨row, rowMember, rfl⟩ := Table.mem_updateWhere.mp member
    exact ⟨row, rowMember, rfl⟩
  have back : ∀ later ∈ after.rows removed, ∃ row ∈ before.rows removed, row.Alike later := by
    rintro later (inRemoved | member)
    · exact ⟨later, .inl inRemoved, rfl, rfl, rfl, rfl⟩
    · obtain ⟨row, rowMember, rfl⟩ := origin later member
      exact ⟨row, .inr rowMember, alike row⟩
  have forth : ∀ row ∈ before.rows removed, ∃ later ∈ after.rows removed, row.Alike later := by
    rintro row (inRemoved | member)
    · exact ⟨row, .inl inRemoved, rfl, rfl, rfl, rfl⟩
    · refine ⟨_, .inr ?_, alike row⟩
      simp only [Set.mem_ofPred_eq, tokens]
      exact Table.mem_updateWhere.mpr ⟨row, member, rfl⟩
  -- A removed row and a stored one have different ids.
  have distinct : ∀ gone ∈ removed, ∀ later ∈ after.tokens, gone.id ≠ later.id := by
    intro gone inRemoved later member same
    obtain ⟨row, rowMember, rfl⟩ := origin later member
    have equal := woven.ids gone (.inl inRemoved) row (.inr rowMember) (same.trans (alike row).id)
    exact woven.apart row rowMember (equal ▸ inRemoved)
  constructor
  case apart =>
    intro later member inRemoved
    exact distinct later inRemoved later member rfl
  case ids =>
    rintro left (leftRemoved | leftMember) right (rightRemoved | rightMember) same
    · exact woven.ids left (.inl leftRemoved) right (.inl rightRemoved) same
    · exact absurd same (distinct left leftRemoved right rightMember)
    · exact absurd same.symm (distinct right rightRemoved left leftMember)
    · obtain ⟨leftRow, leftRowMember, rfl⟩ := origin left leftMember
      obtain ⟨rightRow, rightRowMember, rfl⟩ := origin right rightMember
      have sameRow : leftRow = rightRow :=
        woven.ids leftRow (.inr leftRowMember) rightRow (.inr rightRowMember)
          ((alike leftRow).id.symm.trans (same.trans (alike rightRow).id))
      rw [sameRow]
  case later =>
    intro later member
    obtain ⟨row, rowMember, same⟩ := back later member
    rw [same.id, same.sessionId]
    exact woven.later row rowMember
  case given =>
    intro later member
    obtain ⟨row, rowMember, same⟩ := back later member
    rw [same.id]
    exact Nat.lt_of_lt_of_le (woven.given row rowMember) supply
  case chains =>
    intro sessionId
    obtain ⟨chain, linked⟩ := woven.chains sessionId
    exact ⟨chain, linked.rewrite forth back⟩

section Rotation

variable {stored successor : RefreshToken} {session : Session} {now : Instant}
  {spend : RefreshToken → RefreshToken}

namespace Woven

/-- The id of a successor is larger than those of all tokens before it. -/
theorem lt_successor (woven : Woven removed before)
    (rotates : Rotates before after stored successor session now) {row : RefreshToken}
    (member : row ∈ before.rows removed) : row.id < successor.id :=
  Nat.lt_of_lt_of_le (woven.given row member) rotates.fresh.drawn

variable (woven : Woven removed before)
  (rotates : Rotates before after stored successor session now)
  (tokens : after.tokens =
    Table.updateWhere (fun row => row.id = stored.id) spend before.tokens ++ [successor])
include woven rotates tokens

theorem mem_tokens {row : RefreshToken} : row ∈ after.tokens ↔
    row = spend stored ∨ row = successor ∨ row ∈ before.tokens ∧ row.id ≠ stored.id := by
  rw [tokens, List.mem_append, List.mem_singleton]
  constructor
  · rintro (updated | rfl)
    · rcases Table.mem_updateWhere_cases updated with ⟨old, miss⟩ | ⟨old, oldMember, hit, rfl⟩
      · exact .inr (.inr ⟨old, by simpa using miss⟩)
      · rw [woven.ids old (.inr oldMember) stored (.inr rotates.member) (by simpa using hit)]
        exact .inl rfl
    · exact .inr (.inl rfl)
  · rintro (rfl | rfl | ⟨old, other⟩)
    · exact .inl (Table.mem_updateWhere_of_hit rotates.member (by simp))
    · exact .inr rfl
    · exact .inl (Table.mem_updateWhere_of_not old (by simpa using other))

theorem mem_rows {row : RefreshToken} : row ∈ after.rows removed ↔
    row = spend stored ∨ row = successor ∨ row ∈ before.rows removed ∧ row.id ≠ stored.id := by
  have stays := @mem_tokens _ _ _ _ _ _ _ _ woven rotates tokens
  constructor
  · rintro (inRemoved | member)
    · refine .inr (.inr ⟨.inl inRemoved, ?_⟩)
      intro same
      rw [woven.ids row (.inl inRemoved) stored (.inr rotates.member) same] at inRemoved
      exact woven.apart stored rotates.member inRemoved
    · exact (stays.mp member).imp id (.imp id fun ⟨old, other⟩ => ⟨.inr old, other⟩)
  · rintro (rfl | rfl | ⟨inRemoved | old, other⟩)
    · exact .inr (stays.mpr (.inl rfl))
    · exact .inr (stays.mpr (.inr (.inl rfl)))
    · exact .inl inRemoved
    · exact .inr (stays.mpr (.inr (.inr ⟨old, other⟩)))

variable (spends : RefreshToken.SpentAs now successor.id stored (spend stored))
include spends

theorem rotate_ids : ∀ left ∈ after.rows removed, ∀ right ∈ after.rows removed,
    left.id = right.id → left = right := by
  have members := @mem_rows _ _ _ _ _ _ _ _ woven rotates tokens
  have fresh := @lt_successor _ _ _ _ _ _ _ woven rotates
  have spentFresh : (spend stored).id ≠ successor.id := by
    rw [spends.id]
    exact Nat.ne_of_lt (fresh (.inr rotates.member))
  intro left leftMember right rightMember same
  rcases members.mp leftMember with rfl | rfl | ⟨leftOld, leftOther⟩ <;>
    rcases members.mp rightMember with rfl | rfl | ⟨rightOld, rightOther⟩
  · rfl
  · exact absurd same spentFresh
  · exact absurd (same.symm.trans spends.id) rightOther
  · exact absurd same.symm spentFresh
  · rfl
  · exact absurd same.symm (Nat.ne_of_lt (fresh rightOld))
  · exact absurd (same.trans spends.id) leftOther
  · exact absurd same (Nat.ne_of_lt (fresh leftOld))
  · exact woven.ids left leftOld right rightOld same

/-- The chain of the rotated token grows by the successor, and the others stay. -/
theorem rotate_chains (sessionId : Guid) :
    ∃ chain, Linked (after.rows removed) sessionId chain := by
  have members := @mem_rows _ _ _ _ _ _ _ _ woven rotates tokens
  have owner : successor.sessionId = stored.sessionId :=
    rotates.issued.owner.trans rotates.owned.symm
  obtain ⟨chain, linked⟩ := woven.chains sessionId
  by_cases own : sessionId = stored.sessionId
  · subst own
    exact ⟨_, linked.extend (.inr rotates.member) rotates.unused spends owner rotates.issued.unused
      rotates.issued.unlinked (fun _ => woven.lt_successor rotates) fun _ => members⟩
  · refine ⟨chain, linked.congr ?_⟩
    intro row owns
    rw [members]
    constructor
    · rintro (rfl | rfl | ⟨old, -⟩)
      · exact absurd (owns.symm.trans spends.sessionId) own
      · exact absurd (owns.symm.trans owner) own
      · exact old
    · intro old
      refine .inr (.inr ⟨old, ?_⟩)
      intro same
      rw [woven.ids row old stored (.inr rotates.member) same] at owns
      exact own owns.symm

theorem rotate : Woven removed after := by
  have storedRow : stored ∈ before.rows removed := .inr rotates.member
  have members := @mem_rows _ _ _ _ _ _ _ _ woven rotates tokens
  have fresh := @lt_successor _ _ _ _ _ _ _ woven rotates
  constructor
  case ids => exact woven.rotate_ids rotates tokens spends
  case chains => exact woven.rotate_chains rotates tokens spends
  case apart =>
    intro row member inRemoved
    rcases (woven.mem_tokens rotates tokens).mp member with rfl | rfl | ⟨old, -⟩
    · rw [woven.ids _ (.inl inRemoved) stored storedRow spends.id] at inRemoved
      exact woven.apart stored rotates.member inRemoved
    · exact Nat.lt_irrefl _ (fresh (.inl inRemoved))
    · exact woven.apart row old inRemoved
  case later =>
    intro row member
    rcases members.mp member with rfl | rfl | ⟨old, -⟩
    · rw [spends.id, spends.sessionId]
      exact woven.later stored storedRow
    · rw [rotates.issued.owner.trans rotates.owned.symm]
      exact Nat.lt_trans (woven.later stored storedRow) (fresh storedRow)
    · exact woven.later row old
  case given =>
    intro row member
    have given := rotates.fresh.given
    rcases members.mp member with rfl | rfl | ⟨old, -⟩
    · rw [spends.id]
      exact Nat.lt_trans (fresh storedRow) given
    · exact given
    · exact Nat.lt_trans (fresh old) given

end Woven

end Rotation

theorem Woven.step (woven : Woven removed before) (step : Step .chained before after) :
    Woven removed after := by
  obtain ⟨supply, -, change⟩ := step
  cases change with
  | kept sessions tokens => exact woven.keep supply tokens
  | evolved write evolves sessions tokens => exact woven.keep supply tokens
  | opened session drawn given sessions tokens => exact woven.keep supply tokens
  | issued session token owner permitted issuedTo fresh sessions tokens =>
      exact woven.issue permitted issuedTo fresh.drawn fresh.given tokens
  | rotated stored successor session now write spend rotates evolves keepsId keepsSession keepsHash
      spends sessions tokens => exact woven.rotate rotates tokens spends
  | expired pred now outstanding reached sessions tokens => exact woven.expire supply tokens
  | forgotTokens pred permitted => exact absurd permitted id
  | forgotSessions pred permitted => exact absurd permitted id

theorem Woven.run (woven : Woven removed before) (run : Run .chained before after) :
    Woven removed after :=
  run.induct (Woven removed) woven fun _ _ holds step => holds.step step

/-- Rows that leave the table are counted as removed. -/
theorem Woven.forget (woven : Woven removed before) (supply : before.supply ≤ after.supply)
    (tokens : ∀ row ∈ after.tokens, row ∈ before.tokens) :
    Woven (removed ∪ {row | row ∈ before.tokens ∧ row ∉ after.tokens}) after := by
  have same : after.rows (removed ∪ {row | row ∈ before.tokens ∧ row ∉ after.tokens}) =
      before.rows removed := by
    ext row
    simp only [rows, Set.mem_union, Set.mem_ofPred_eq]
    constructor
    · rintro ((inRemoved | ⟨old, -⟩) | stays)
      · exact .inl inRemoved
      · exact .inr old
      · exact .inr (tokens row stays)
    · rintro (inRemoved | old)
      · exact .inl (.inl inRemoved)
      · by_cases stays : row ∈ after.tokens
        · exact .inr stays
        · exact .inl (.inr ⟨old, stays⟩)
  constructor
  · rintro row member (inRemoved | ⟨-, gone⟩)
    · exact woven.apart row (tokens row member) inRemoved
    · exact gone member
  · rw [same]
    exact woven.ids
  · rw [same]
    exact woven.later
  · rw [same]
    intro row member
    exact Nat.lt_of_lt_of_le (woven.given row member) supply
  · rw [same]
    exact woven.chains

/-- The unspent token of a session is the end of its chain, so there is only one. -/
theorem Woven.unspent (woven : Woven removed before) {left right : RefreshToken}
    (leftMember : left ∈ before.tokens) (rightMember : right ∈ before.tokens)
    (same : left.sessionId = right.sessionId) (leftUnused : left.usedAt = none)
    (rightUnused : right.usedAt = none) : left = right := by
  obtain ⟨chain, linked⟩ := woven.chains right.sessionId
  obtain ⟨leftOlder, leftNewer, leftSplit, -, leftEnd⟩ := linked.links left (.inr leftMember) same
  obtain ⟨rightOlder, rightNewer, rightSplit, -, rightEnd⟩ :=
    linked.links right (.inr rightMember) rfl
  obtain rfl := leftEnd.mp leftUnused
  obtain rfl := rightEnd.mp rightUnused
  have ends := List.append_inj_right' (leftSplit.symm.trans rightSplit) rfl
  exact woven.ids left (.inr leftMember) right (.inr rightMember) (List.singleton_inj.mp ends)

end Woven

end Ledger

/-! ### Runs -/

/-- No token that was not there. -/
def Shrinks (before after : State) : Prop :=
  ∀ row ∈ after.store.db.refreshTokens, row ∈ before.store.db.refreshTokens

instance : Steady Shrinks where
  later _ _ later row member := by rwa [later.refreshTokens] at member
  trans _ _ _ early late row member := early row (late row member)

theorem Keeps.shrink {count : Db → ℕ} {write : Db → Db} {events : Db → List Event}
    (subset : ∀ db, ∀ row ∈ (write db).refreshTokens, row ∈ db.refreshTokens) :
    Keeps .timely Shrinks (Action.execute count write events) := by
  refine execute ?_
  rintro call start _ input rfl _
  exact ⟨trivial, fun row member => subset _ row member⟩

theorem cleanupOnceAsync_shrinks (services : Services) :
    Keeps .timely Shrinks (ExpiredAuthArtifactCleanupService.cleanupOnceAsync services) := by
  have deletes : ∀ pred : RefreshToken → Bool, ∀ db : Db,
      ∀ row ∈ Table.deleteWhere pred db.refreshTokens, row ∈ db.refreshTokens :=
    fun _ _ _ member => (Table.mem_deleteWhere.mp member).1
  apply Keeps.bind .utcNow
  intro now
  apply Keeps.bind
  · apply Keeps.bind (.query _)
    intro found
    apply Keeps.ite
    · apply Keeps.bind
      · exact .shrink fun db => deletes _ db
      intro _
      exact .pure _
    · exact .pure _
  intro _
  apply Keeps.bind
  · apply Keeps.bind (.query _)
    intro found
    apply Keeps.ite
    · apply Keeps.bind
      · exact .shrink fun db => deletes _ db
      intro _
      exact .pure _
    · exact .pure _
  intro _
  apply Keeps.bind
  · apply Keeps.bind (.query _)
    intro found
    apply Keeps.ite
    · apply Keeps.bind
      · exact .shrink fun _ _ member => member
      intro _
      exact .pure _
    · exact .pure _
  intro _
  apply Keeps.bind (.query _)
  intro found
  apply Keeps.ite
  · apply Keeps.bind
    · exact .shrink fun _ _ member => member
    intro _
    exact .pure _
  · exact .pure _

/-- The bare `IssueAsync`, which is part of a sign-in only. -/
def SessionOperation.issues : SessionOperation → Bool
  | .issue _ => true
  | _ => false

/-- The tokens that a cleanup of the history has removed. -/
def removedByCleanup (history : List SessionRecord) : Set RefreshToken :=
  {row | ∃ record ∈ history, record.op = .cleanup ∧ row ∈ record.before.store.db.refreshTokens ∧
    row ∉ record.after.store.db.refreshTokens}

section Runs

variable {services : Services} {start final : State} {history : List SessionRecord}

theorem removedByCleanup_snoc (record : SessionRecord) :
    removedByCleanup (history ++ [record]) = removedByCleanup history ∪
      {row | record.op = .cleanup ∧ row ∈ record.before.store.db.refreshTokens ∧
        row ∉ record.after.store.db.refreshTokens} := by
  ext row
  simp [removedByCleanup, or_and_right, exists_or]

theorem woven_of_runs (fresh : StartsFresh start)
    (composed : ∀ record ∈ history, record.op.issues = false)
    (runs : RunsTo Timely (SessionOperation.program services) start history final) :
    final.ledger.Woven (removedByCleanup history) := by
  induction runs with
  | start =>
      have none : start.ledger.rows (removedByCleanup []) = ∅ := by
        ext row
        simp [Ledger.rows, removedByCleanup, Shared.ledger, fresh.tokens]
      constructor
      · simp [Shared.ledger, fresh.tokens]
      · simp [none]
      · simp [none]
      · simp [none]
      · intro sessionId
        rw [none]
        exact ⟨[], .nil, by simp, by simp⟩
  | @snoc earlierHistory before after outcome earlier op completes inductionHypothesis =>
      have woven := inductionHypothesis fun record member =>
        composed record (List.mem_append_left _ member)
      have entered : Entered .free before after := SessionOperation.entered completes
      rw [removedByCleanup_snoc]
      by_cases cleans : op = .cleanup
      · subst cleans
        have shrinks : Keeps .timely Shrinks (SessionOperation.cleanup.program services) :=
          .bind (cleanupOnceAsync_shrinks services) fun _ => .pure _
        simpa [Shared.ledger] using woven.forget entered.supply (shrinks.of_completes completes)
      · have refines : Refines .chained (op.program services) := by
          refine op.refines services ?_ ?_
          · intro sessionId same
            have other := composed _ (List.mem_append_right _ (List.mem_singleton_self _))
            rw [same] at other
            cases other
          · intro same
            exact absurd same cleans
        have nothing : {row | op = .cleanup ∧ row ∈ before.store.db.refreshTokens ∧
            row ∉ after.store.db.refreshTokens} = (∅ : Set RefreshToken) := by
          simp [cleans]
        rw [nothing, Set.union_empty]
        exact woven.run (refines.of_completes completes)

/-- A rotation that succeeded at `now`, within both lifetimes and under the current stamp, and
that changed the session in nothing but its last activity. -/
structure RotatedInTime (services : Services) (record : SessionRecord) (session : Session)
    (now : Instant) : Prop where
  member : session ∈ record.before.store.db.sessions
  begun : record.before.last.now ≤ now
  ended : now ≤ record.after.last.now
  young : now < session.absoluteExpiresAt
  active : now < session.lastActiveAt + services.sessionOptions.inactivityWindow
  stamp : ∃ user ∈ record.before.store.db.users, user.id = session.userId ∧
    user.securityStamp = session.securityStamp
  slid : ∃ updatedAt, { session with lastActiveAt := now, updatedAt } ∈
    record.after.store.db.sessions
  others : ∀ row ∈ record.after.store.db.sessions, row.id ≠ session.id →
    row ∈ record.before.store.db.sessions

/-- Chains and lifetimes, at the end of a history. -/
structure SessionChains (services : Services) (history : List SessionRecord) (final : State) :
    Prop where
  single : ∀ left ∈ final.store.db.refreshTokens, ∀ right ∈ final.store.db.refreshTokens,
    left.sessionId = right.sessionId → left.usedAt = none → right.usedAt = none → left = right
  chains : ∀ sessionId, ∃ chain, Ledger.Linked
    (removedByCleanup history ∪ {row | row ∈ final.store.db.refreshTokens}) sessionId chain
  bounded : ∀ token ∈ final.store.db.refreshTokens, ∃ session ∈ final.store.db.sessions,
    session.id = token.sessionId ∧ token.expiresAt ≤ session.absoluteExpiresAt
  lifetime : ∀ record ∈ history, ∀ session,
    session ∈ record.before.store.db.sessions ∨ session ∈ record.after.store.db.sessions →
    ∀ row ∈ final.store.db.sessions, row.id = session.id →
      row.absoluteExpiresAt = session.absoluteExpiresAt
  rotated : ∀ record ∈ history, ∀ token sessionId, record.Rotated token sessionId →
    ∃ session now, session.id = sessionId ∧ RotatedInTime services record session now

/-- What a session row is after its commit. -/
theorem RefreshTokenService.mem_slid {session : Session} {now savedAt : Instant}
    {sessions : List Session} (member : session ∈ sessions) :
    ∃ updatedAt, { session with lastActiveAt := now, updatedAt } ∈
      writtenSessions session (slide session now) savedAt sessions := by
  by_cases same : slide session now = session
  · have untouched :
        { session with lastActiveAt := now, updatedAt := session.updatedAt } = session :=
      same
    refine ⟨session.updatedAt, ?_⟩
    rw [untouched]
    exact Table.mem_updateWhere_of_not member (by simp [same])
  · refine ⟨savedAt, ?_⟩
    have written : session.merge (slide session now) savedAt session ∈
        writtenSessions session (slide session now) savedAt sessions :=
      Table.mem_updateWhere_of_hit member (by simp [same])
    simpa [Session.merge, slide] using written

theorem rotatedInTime_of_rotated
    (runs : RunsTo Timely (SessionOperation.program services) start history final) {position : ℕ}
    {record : SessionRecord} {token : String} {sessionId : Guid}
    (found : history[position]? = some record) (rotated : record.Rotated token sessionId) :
    ∃ session now, session.id = sessionId ∧ RotatedInTime services record session now := by
  obtain ⟨result, succeeded, owns, run⟩ := rotationRun_of_rotated runs found rotated
  cases run with
  | refused _ _ refusal =>
      cases refusal with
      | notFound => cases succeeded
      | unspent _ _ _ different => exact absurd succeeded different.1
  | replayed => cases succeeded
  | rotated _ stored successor session now savedAt access refresh checked successorOf freshHash
      leaves =>
      obtain ⟨-, -, member, -⟩ := RefreshTokenService.presented_eq_single checked.found
      refine ⟨session, now, Option.some.inj owns, member, checked.begun, checked.ended,
        checked.accepted.young, checked.accepted.active, ?_, ?_, ?_⟩
      · have stamps := Action.single_eq_ok.mp checked.stamp
        have listed : session.securityStamp ∈ (record.before.store.db.users.filter
            (·.id = session.userId)).map (·.securityStamp) := by simp [stamps]
        obtain ⟨user, userMember, stamp⟩ := List.mem_map.mp listed
        obtain ⟨inUsers, same⟩ := List.mem_filter.mp userMember
        exact ⟨user, inUsers, by simpa using same, stamp⟩
      · rw [leaves.sessions]
        exact RefreshTokenService.mem_slid member
      · intro row written other
        rw [leaves.sessions] at written
        rcases Table.mem_updateWhere_cases written with ⟨old, -⟩ | ⟨old, -, hit, rfl⟩
        · exact old
        · simp only [Bool.and_eq_true, decide_eq_true_eq] at hit
          exact absurd hit.1 other

/-- The lifetime of a session is settled from the first state that has it. -/
theorem lifetime_of_entered {before after : State} (sound : before.ledger.Sound)
    (entered : Entered .free before after) {session row : Session}
    (member : session ∈ before.store.db.sessions) (rowMember : row ∈ after.store.db.sessions)
    (same : row.id = session.id) : row.absoluteExpiresAt = session.absoluteExpiresAt := by
  have settled : before.ledger.Settled session.id
      fun row => row.absoluteExpiresAt = session.absoluteExpiresAt :=
    sound.settled member rfl
  have later : after.ledger.Settled session.id
      fun row => row.absoluteExpiresAt = session.absoluteExpiresAt :=
    settled.run (fun _ _ evolves lifetime => evolves.absoluteExpiresAt.trans lifetime) entered
  exact later.2 row rowMember same

/-- The tokens of every session form one chain, within the lifetime of the session. -/
theorem sessionChains_of_runs (fresh : StartsFresh start)
    (composed : ∀ record ∈ history, record.op.issues = false)
    (runs : RunsTo Timely (SessionOperation.program services) start history final) :
    SessionChains services history final := by
  have woven := woven_of_runs fresh composed runs
  have sound : final.ledger.Sound := fresh.sound.run (entered_of_runs runs)
  constructor
  case single =>
    intro left leftMember right rightMember
    exact woven.unspent leftMember rightMember
  case chains => exact woven.chains
  case bounded =>
    intro token member
    obtain ⟨session, sessionMember, owns⟩ := sound.owned token member
    exact ⟨session, sessionMember, owns,
      (sound.lasting token member session sessionMember owns).bounded⟩
  case lifetime =>
    intro record member session present row rowMember same
    obtain ⟨position, found⟩ := List.mem_iff_getElem?.mp member
    obtain ⟨reached, completes⟩ := runs.record found
    have soundBefore : record.before.ledger.Sound := fresh.sound.run (entered_of_runs reached)
    have entered : Entered .free record.before record.after := SessionOperation.entered completes
    have since : Entered .free record.after final :=
      runs.since (fun _ => .refl) (fun _ _ _ => .trans)
        (fun _ _ _ _ _ completes => SessionOperation.entered completes) found
    rcases present with inBefore | inAfter
    · exact lifetime_of_entered soundBefore (entered.trans since) inBefore rowMember same
    · exact lifetime_of_entered (soundBefore.run entered) since inAfter rowMember same
  case rotated =>
    intro record member token sessionId rotated
    obtain ⟨position, found⟩ := List.mem_iff_getElem?.mp member
    exact rotatedInTime_of_rotated runs found rotated

end Runs

/-- A user without sessions. -/
def registeredWorld : World := { signedInWorld with db := { signedInWorld.db with sessions := [] } }

/-- Sign in, rotate the token, and let everything expire. -/
def rotatedRun : Option (List SessionRecord × State) :=
  RunsTo.executeAll Timely (SessionOperation.program .sample)
    [(.signIn {} 1 [.password], ⟨10, false⟩), (.rotate {} "ttttt", ⟨20, false⟩),
      (.cleanup, ⟨20000, false⟩)] [] (Shared.initial registeredWorld ⟨10, false⟩)

set_option maxRecDepth 20000 in
theorem rotatedRun_any :
    rotatedRun.any (fun run => (∀ record ∈ run.1, record.op.issues = false) ∧
      run.1[1]?.any fun record => record.Rotated "ttttt" 4 ∧
        record.after.store.db.refreshTokens.length = 2) = true := by
  decide

theorem sessionChains_of_runs_sample :
    ∃ history final, rotatedRun = some (history, final) ∧ SessionChains .sample history final := by
  obtain ⟨⟨history, final⟩, ran, checked⟩ := (Option.any_eq_true _ _).mp rotatedRun_any
  simp only [decide_eq_true_eq] at checked
  have fresh : StartsFresh (Shared.initial registeredWorld ⟨10, false⟩) :=
    ⟨rfl, by decide, by decide⟩
  exact ⟨history, final, ran, sessionChains_of_runs fresh checked.1 (.of_executeAll .start ran)⟩

end AuthStartpack
