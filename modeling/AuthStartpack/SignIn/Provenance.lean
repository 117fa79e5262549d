import AuthStartpack.SignIn.Hashes
import AuthStartpack.SignIn.Tickets

/-!
Owns what is known of the tickets at every moment of a run. Every stored ticket
is vouched for. A token that was consumed stays consumed as long as it is stored,
no other token gets its hash, and no second call consumes one with this hash.
-/

namespace AuthStartpack

variable {services : Services} {vouched : VerificationToken → Prop}
variable {pool : Pool Input World Event AppException Unit} {owner : ℕ → ℕ → Prop}

/-- A token that was consumed once, seen later. -/
structure Spent (vouched : VerificationToken → Prop) (rows : List VerificationToken)
    (token : VerificationToken) : Prop where
  vouched : token.type = .mfaChallenge → vouched token
  rows : ∀ row ∈ rows, row.tokenHash = token.tokenHash → row.issue = token.issue ∧
    row.consumedAt ≠ none

/-- Whatever was consumed is spent. -/
def AllSpent (vouched : VerificationToken → Prop) (state : State) : Prop :=
  ∀ entry ∈ state.journal, ∀ token consumer,
    entry.event = .verificationTokenConsumed token consumer →
    Spent vouched state.store.db.verificationTokens token

/-- Consumptions of one hash are those of one call. -/
def ConsumedByOne (state : State) : Prop :=
  ∀ first ∈ state.journal, ∀ second ∈ state.journal, ∀ token other consumer otherConsumer,
    first.event = .verificationTokenConsumed token consumer →
    second.event = .verificationTokenConsumed other otherConsumer →
    token.tokenHash = other.tokenHash → first.call = second.call

/-- The invariant of a run. -/
structure Traced (services : Services) (vouched : VerificationToken → Prop)
    (pool : Pool Input World Event AppException Unit) (owner : ℕ → ℕ → Prop) : Prop where
  owned : pool.Owned (tokenHashes services).numbering (fun _ _ => True) owner
  keyed : Table.Keyed VerificationToken.tokenHash pool.shared.store.db.verificationTokens
  tickets : ∀ row ∈ pool.shared.store.db.verificationTokens, row.type = .mfaChallenge → vouched row
  spent : AllSpent vouched pool.shared
  retired : ∀ entry ∈ pool.shared.journal, ∀ token consumer,
    entry.event = .verificationTokenConsumed token consumer → ∀ number,
      token.tokenHash = services.tokenGenerator.hash
        (services.tokenGenerator.newOpaqueToken number) →
      pool.Retired (tokenHashes services).numbering owner number
  once : ConsumedByOne pool.shared

theorem VerificationToken.issue_type {token other : VerificationToken}
    (same : token.issue = other.issue) :
    token.type = other.type :=
  congrArg (fun issue => issue.2.1) same

theorem VerificationToken.issue_tokenHash {token other : VerificationToken}
    (same : token.issue = other.issue) : token.tokenHash = other.tokenHash :=
  congrArg (fun issue => issue.2.2.1) same

theorem VerificationToken.issue_userId {token other : VerificationToken}
    (same : token.issue = other.issue) : token.userId = other.userId :=
  congrArg (fun issue => issue.1) same

section Step

variable {issued : VerificationToken → Prop} {call : ℕ} {input : Input}

/-- A spent token stays spent: nobody draws its value again. -/
theorem Spent.step {token : VerificationToken}
    (moves : TokensMove services call pool.shared (pool.step call input).shared)
    (spent : Spent vouched pool.shared.store.db.verificationTokens token)
    (unused : ∀ number,
      token.tokenHash = services.tokenGenerator.hash
        (services.tokenGenerator.newOpaqueToken number) →
      (tokenHashes services).Uses (pool.step call input).shared.store.db number →
        (tokenHashes services).Uses pool.shared.store.db number) :
    Spent vouched (pool.step call input).shared.store.db.verificationTokens token where
  vouched := spent.vouched
  rows row member sameHash := by
    rcases moves.rows row member with ⟨old, stored, same, stays⟩ | ⟨fresh, number, drawn⟩
    · have hash : old.tokenHash = token.tokenHash :=
        (VerificationToken.issue_tokenHash same).trans sameHash
      obtain ⟨issue, consumed⟩ := spent.rows old stored hash
      exact ⟨same.symm.trans issue, stays consumed⟩
    · -- a new row would have to be the hash of a retired value
      obtain ⟨old, stored, hash⟩ := unused number (sameHash.symm.trans drawn) ⟨row, member, drawn⟩
      exact absurd (hash.trans drawn.symm) (fresh old stored)

/-- One step of the pool keeps the invariant. -/
theorem Traced.step (vouches : ∀ row source : VerificationToken, source.issue = row.issue →
      vouched source → vouched row) (vouchesIssued : ∀ row, issued row → vouched row)
    (traced : Traced services vouched pool owner)
    (moves : TokensMove services call pool.shared (pool.step call input).shared)
    (tickets : TicketsFrom issued pool.shared.store.db.verificationTokens
      (pool.step call input).shared.store.db.verificationTokens) :
    ∃ later, Traced services vouched (pool.step call input) later := by
  obtain ⟨later, owned, retires⟩ := Pool.step_retired traced.owned call input
  obtain ⟨added, journal, news⟩ := moves.consumed
  have oldRetired : ∀ entry ∈ pool.shared.journal, ∀ token consumer,
      entry.event = .verificationTokenConsumed token consumer → ∀ number,
        token.tokenHash = services.tokenGenerator.hash
          (services.tokenGenerator.newOpaqueToken number) →
        (pool.step call input).Retired (tokenHashes services).numbering later number :=
    fun entry member token consumer consumes number drawn =>
      (retires number (traced.retired entry member token consumer consumes number drawn)).1
  refine ⟨later, owned, moves.keyed traced.keyed, ?_, ?_, ?_, ?_⟩
  case refine_1 =>
    intro row member isTicket
    rcases tickets row member isTicket with ⟨old, stored, same⟩ | isIssued
    · refine vouches row old same (traced.tickets old stored ?_)
      exact (VerificationToken.issue_type same).trans isTicket
    · exact vouchesIssued row isIssued
  case refine_2 =>
    intro entry member token consumer consumes
    rw [journal] at member
    rcases List.mem_append.mp member with old | new
    · refine (traced.spent entry old token consumer consumes).step moves ?_
      intro number drawn used
      exact (retires number (traced.retired entry old token consumer consumes number drawn)).2 used
    · obtain ⟨⟨stored, -⟩, rows⟩ := (news entry new).2 token consumer consumes
      exact ⟨traced.tickets token stored, rows traced.keyed⟩
  case refine_3 =>
    intro entry member token consumer consumes number drawn
    rw [journal] at member
    rcases List.mem_append.mp member with old | new
    · exact oldRetired entry old token consumer consumes number drawn
    · obtain ⟨⟨stored, -⟩, -⟩ := (news entry new).2 token consumer consumes
      exact (retires number (traced.owned.retired_of_used ⟨token, stored, drawn⟩)).1
  case refine_4 =>
    intro first firstMember second secondMember token other consumer otherConsumer consumes
      consumesOther same
    rw [journal] at firstMember secondMember
    rcases List.mem_append.mp firstMember with old | new <;>
      rcases List.mem_append.mp secondMember with oldToo | newToo
    · exact traced.once first old second oldToo token other consumer otherConsumer consumes
        consumesOther same
    · obtain ⟨⟨stored, open_⟩, -⟩ := (news second newToo).2 other otherConsumer consumesOther
      have spent := traced.spent first old token consumer consumes
      exact absurd open_ (spent.rows other stored same.symm).2
    · obtain ⟨⟨stored, open_⟩, -⟩ := (news first new).2 token consumer consumes
      have spent := traced.spent second oldToo other otherConsumer consumesOther
      exact absurd open_ (spent.rows token stored same).2
    · exact (news first new).1.trans (news second newToo).1.symm

end Step

/-! ### Runs -/

/-- Tables in which nothing was consumed yet in this run, with hashes apart, of values that were
drawn. -/
structure TicketStart (services : Services) (start : State) : Prop where
  journal : start.journal = []
  keyed : Table.Keyed VerificationToken.tokenHash start.store.db.verificationTokens
  drawn : ∀ token ∈ start.store.db.verificationTokens, ∀ number,
    token.tokenHash = services.tokenGenerator.hash (services.tokenGenerator.newOpaqueToken number) →
    number < start.store.supply

end AuthStartpack
