import AuthStartpack.Recovery.Recoverable
import AuthStartpack.Users.SignInMethods

/-!
Owns which registered accounts the reader of the mailbox can recover, in every
state that operations in any order lead to: those whose address is verified, and
those that were mailed a verification token that is still live. Once that token
has lapsed, a registered account is out of reach for good.
-/

namespace AuthStartpack

/-- Operations that have not begun. -/
def operatingServices (services : Services) (fido2 : Fido2) (operations : List ServiceOperation)
    (start : State) : Pool Input World Event AppException Unit where
  shared := start
  calls := operations.map (·.program services fido2)

/-- The account was registered, and it still exists. -/
structure Registered (account : User) (state : State) : Prop where
  stored : account ∈ state.store.db.users
  reported : ∃ entry ∈ state.journal, ∃ user, entry.event = .userRegistered user ∧
    user.id = account.id ∧ user.email = account.email

theorem operatingServices_unambiguous {services : Services} {fido2 : Fido2} {start : State}
    (unambiguous : Unambiguous services.lower start) (operations : List ServiceOperation)
    (schedule : List (ℕ × Input)) :
    Unambiguous services.lower
      ((operatingServices services fido2 operations start).run schedule).shared := by
  let pool := operatingServices services fido2 operations start
  have verified : pool.Verified (fun _ _ _ _ => True) (StaysUnambiguous services.lower)
      fun _ _ _ => True := by
    refine Pool.verified_of_wp StaysUnambiguous.refl ?_
    intro call program found
    simp only [pool, operatingServices, List.getElem?_map, Option.map_eq_some_iff] at found
    obtain ⟨op, -, rfl⟩ := found
    refine Program.wp_mono (op.unambiguous call start) ?_
    intro _ _ _
    trivial
  exact (Pool.run_wp StaysUnambiguous.refl StaysUnambiguous.trans verified
    (Pool.admitted_any schedule)).1 unambiguous

/-- A registered account can be recovered if its address is verified or was mailed a live token, and
without a live token only if it is verified. -/
theorem registered_recoverable {services : Services} {fido2 : Fido2} {start : State}
    (differ : TokensDiffer services)
    (verifies : ∀ password salt,
      services.passwordHasher.verify password (services.passwordHasher.hash password salt) = true)
    (unambiguous : Unambiguous services.lower start) (operations : List ServiceOperation)
    (schedule : List (ℕ × Input)) (account : User) :
    let state := ((operatingServices services fido2 operations start).run schedule).shared
    Registered account state →
      ((account.emailVerified = true ∨ LiveMailed services account .emailVerification state) →
        Recoverable services fido2 account state) ∧
      (Recoverable services fido2 account state → account.emailVerified = true ∨
        ∃ token ∈ state.store.db.verificationTokens,
          token.Live .emailVerification account.id state.last.now) := by
  intro state registered
  have holds : Unambiguous services.lower state :=
    operatingServices_unambiguous unambiguous operations schedule
  constructor
  · obtain ⟨entry, member, user, reported, -, sameEmail⟩ := registered.reported
    have trimmed : trim account.email = account.email := by
      rw [← sameEmail]
      exact holds.trimmed entry member user reported
    exact recoverable_of_verifiable differ verifies holds registered.stored trimmed
  · intro recoverable
    by_contra neither
    obtain ⟨unverified, lapsed⟩ := not_or.mp neither
    refine Unverifiable.not_recoverable ⟨⟨account, registered.stored, rfl⟩, ?_, ?_⟩ recoverable
    · intro user member own
      rw [holds.indexed.users.eq_of_key member registered.stored own]
      exact eq_false_of_ne_true unverified
    · exact fun token member live => lapsed ⟨token, member, live⟩

theorem seededWorld_unambiguous (lower : String → String) :
    Unambiguous lower (Shared.initial seededWorld ⟨90, false⟩) where
  indexed := ⟨List.nodup_nil, .nil, List.nodup_nil⟩
  trimmed _ member := (List.not_mem_nil member).elim

theorem verifies_sample (password : String) (salt : ℕ) :
    Services.sample.passwordHasher.verify password
      (Services.sample.passwordHasher.hash password salt) =
      true := by
  simp [Services.sample]

/-- Ada registers, and the cleanup runs long afterwards. -/
def adaRegisters : Pool Input World Event AppException Unit :=
  operatingServices .sample .attesting
    [.register {} { email := "ada@example.test", password := "secret" }, .cleanup]
    (Shared.initial seededWorld ⟨90, false⟩)

/-- Ada's row, as it is registered. -/
def adaRegistered : User where
  id := 2
  email := "ada@example.test"
  passwordHash := some "s$secret"
  securityStamp := 3

/-- Ada's row, as it is stored. -/
def adaStored : User := { adaRegistered with createdAt := 100, updatedAt := 100 }

def afterTheLifetime : List (ℕ × Input) :=
  callSteps 0 30 ++ List.replicate 20 (1, ⟨1000000000000, false⟩)

set_option maxRecDepth 10000 in
/-- While the mailed token is live, Ada recovers the account. -/
theorem registered_recoverable_sample :
    Registered adaStored (adaRegisters.run (callSteps 0 30)).shared ∧
      Recoverable .sample .attesting adaStored (adaRegisters.run (callSteps 0 30)).shared := by
  have registered : Registered adaStored (adaRegisters.run (callSteps 0 30)).shared := by
    refine ⟨by decide +kernel, ⟨0, ⟨100, false⟩, _⟩, ?_, adaRegistered, rfl, rfl, rfl⟩
    decide +kernel
  have mailed : LiveMailed .sample adaStored .emailVerification
      (adaRegisters.run (callSteps 0 30)).shared := by
    refine ⟨⟨5, some 2, .emailVerification, "sha256:tttt", 864000000100, none, 100, 100⟩, ?_,
      ?_, "tttt", ?_⟩
    all_goals decide +kernel
  exact ⟨registered, (registered_recoverable tokensDiffer_sample verifies_sample
    (seededWorld_unambiguous _) _ (callSteps 0 30) adaStored registered).1 (.inr mailed)⟩

/-- Once it has lapsed and is deleted, nothing that Ada can do makes the login pass. -/
theorem registered_not_recoverable :
    Registered adaStored (adaRegisters.run afterTheLifetime).shared ∧
      ¬ Recoverable .sample .attesting adaStored (adaRegisters.run afterTheLifetime).shared := by
  refine ⟨⟨by decide +kernel, ⟨0, ⟨100, false⟩, _⟩, ?_, adaRegistered, rfl, rfl, rfl⟩, ?_⟩
  · decide +kernel
  · refine Unverifiable.not_recoverable ⟨?_, ?_, ?_⟩
    all_goals decide +kernel

end AuthStartpack
