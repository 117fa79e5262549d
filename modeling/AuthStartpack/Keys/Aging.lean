import AuthStartpack.Keys.Agreement

/-!
Owns the ages of signing keys: how a key may change between two instants if a
demotion is recorded late by no more than an allowance, and a demoted key is
retired no sooner than the grace period after the recorded instant. A key that
was active at some instant then serves for the grace period from there, less the
allowance.
-/

namespace AuthStartpack

namespace SigningKey

variable {grace allowance : ℤ}

/-- Since `since` the key has not been retired too soon, as it stands at `now`. -/
def Serves (grace allowance since now : ℤ) (key : SigningKey) : Prop :=
  match key.status with
  | .active => True
  | .retiring => ∃ demotedAt : ℤ, key.retiringAt = some demotedAt ∧ since ≤ demotedAt + allowance
  | .retired => since + grace ≤ now + allowance

theorem Serves.of_active {since now : ℤ} {key : SigningKey} (active : key.status = .active) :
    key.Serves grace allowance since now := by
  unfold Serves
  rw [active]
  trivial

/-- Counted from an earlier instant. -/
theorem Serves.earlier {since before now : ℤ} {key : SigningKey}
    (serves : key.Serves grace allowance since now) (sooner : before ≤ since) :
    key.Serves grace allowance before now := by
  unfold Serves at serves ⊢
  cases status : key.status with
  | active => trivial
  | retiring =>
      rw [status] at serves
      obtain ⟨demotedAt, recorded, soon⟩ := serves
      exact ⟨demotedAt, recorded, by omega⟩
  | retired =>
      rw [status] at serves
      show before + grace ≤ now + allowance
      dsimp only at serves
      omega

/-- A key of which less than the grace period has passed is not retired. -/
theorem Serves.not_retired {since now : ℤ} {key : SigningKey}
    (serves : key.Serves grace allowance since now) (early : now + allowance < since + grace) :
    key.status ≠ .retired := by
  intro retired
  unfold Serves at serves
  rw [retired] at serves
  dsimp only at serves
  omega

/-- What the saves between two instants may do to a key. -/
structure Ages (grace allowance earlier later : ℤ) (before after : SigningKey) :
    Prop where
  continues : before.Continues after
  stays : after.status = before.status → after.retiringAt = before.retiringAt
  demoted : before.status = .active → after.status = .retiring →
    ∃ demotedAt : ℤ, after.retiringAt = some demotedAt ∧ earlier ≤ demotedAt + allowance
  elapsed : before.status = .retiring → after.status = .retired →
    ∃ demotedAt : ℤ, before.retiringAt = some demotedAt ∧ demotedAt + grace ≤ later
  served : before.status = .active → after.status = .retired → earlier + grace ≤ later + allowance

namespace Ages

variable {earlier middle later : ℤ} {first second third : SigningKey}

theorem refl (key : SigningKey) : key.Ages grace allowance earlier later key where
  continues := ⟨.refl key, Nat.le_refl _⟩
  stays _ := rfl
  demoted active retiring := by
    rw [active] at retiring
    cases retiring
  elapsed retiring retired := by
    rw [retiring] at retired
    cases retired
  served active retired := by
    rw [active] at retired
    cases retired

/-- Over a longer time. -/
theorem mono {start finish : ℤ} (ages : first.Ages grace allowance earlier later second)
    (starts : start ≤ earlier) (finishes : later ≤ finish) :
    first.Ages grace allowance start finish second where
  continues := ages.continues
  stays := ages.stays
  demoted active retiring := by
    obtain ⟨demotedAt, recorded, soon⟩ := ages.demoted active retiring
    exact ⟨demotedAt, recorded, by omega⟩
  elapsed retiring retired := by
    obtain ⟨demotedAt, recorded, long⟩ := ages.elapsed retiring retired
    exact ⟨demotedAt, recorded, by omega⟩
  served active retired := by
    have long := ages.served active retired
    omega

/-- The status between two others. -/
theorem between (early : first.Ages grace allowance earlier middle second)
    (late : second.Ages grace allowance middle later third) :
    first.status.rank ≤ second.status.rank ∧ second.status.rank ≤ third.status.rank :=
  ⟨early.continues.rank, late.continues.rank⟩

theorem trans (early : first.Ages grace allowance earlier middle second)
    (late : second.Ages grace allowance middle later third) (onward : earlier ≤ middle)
    (goesOn : middle ≤ later) : first.Ages grace allowance earlier later third := by
  obtain ⟨up, upMore⟩ := early.between late
  constructor
  case continues =>
    exact ⟨early.continues.same.trans late.continues.same, Nat.le_trans up upMore⟩
  case stays =>
    intro same
    rw [same] at upMore
    have middleSame : second.status = first.status :=
      SigningKeyStatus.rank_injective (Nat.le_antisymm upMore up)
    rw [late.stays (same.trans middleSame.symm), early.stays middleSame]
  case demoted =>
    intro active retiring
    cases between : second.status with
    | active =>
        obtain ⟨demotedAt, recorded, soon⟩ := late.demoted between retiring
        exact ⟨demotedAt, recorded, by omega⟩
    | retiring =>
        obtain ⟨demotedAt, recorded, soon⟩ := early.demoted active between
        exact ⟨demotedAt, (late.stays (retiring.trans between.symm)).trans recorded, soon⟩
    | retired =>
        rw [between, retiring] at upMore
        exact absurd upMore (by decide)
  case elapsed =>
    intro retiring retired
    cases between : second.status with
    | active =>
        rw [between, retiring] at up
        exact absurd up (by decide)
    | retiring =>
        obtain ⟨demotedAt, recorded, long⟩ := late.elapsed between retired
        exact ⟨demotedAt, (early.stays (between.trans retiring.symm)).symm.trans recorded, long⟩
    | retired =>
        obtain ⟨demotedAt, recorded, long⟩ := early.elapsed retiring between
        exact ⟨demotedAt, recorded, by omega⟩
  case served =>
    intro active retired
    cases between : second.status with
    | active =>
        have long := late.served between retired
        omega
    | retiring =>
        obtain ⟨demotedAt, recorded, soon⟩ := early.demoted active between
        obtain ⟨elapsedFrom, found, long⟩ := late.elapsed between retired
        rw [recorded] at found
        cases found
        omega
    | retired =>
        have long := early.served active between
        omega

/-- A key that serves goes on serving. -/
theorem serves {since : ℤ} (ages : first.Ages grace allowance earlier later second)
    (serves : first.Serves grace allowance since earlier) (begun : since ≤ earlier)
    (onward : earlier ≤ later) : second.Serves grace allowance since later := by
  have rank := ages.continues.rank
  unfold Serves at serves ⊢
  cases before : first.status with
  | active =>
      cases after : second.status with
      | active => trivial
      | retiring =>
          obtain ⟨demotedAt, recorded, soon⟩ := ages.demoted before after
          exact ⟨demotedAt, recorded, by omega⟩
      | retired =>
          have long := ages.served before after
          show since + grace ≤ later + allowance
          omega
  | retiring =>
      rw [before] at serves
      obtain ⟨demotedAt, recorded, soon⟩ := serves
      cases after : second.status with
      | active =>
          rw [before, after] at rank
          exact absurd rank (by decide)
      | retiring => exact ⟨demotedAt, (ages.stays (after.trans before.symm)).trans recorded, soon⟩
      | retired =>
          obtain ⟨elapsedFrom, found, long⟩ := ages.elapsed before after
          rw [recorded] at found
          cases found
          show since + grace ≤ later + allowance
          omega
  | retired =>
      rw [before] at serves
      cases after : second.status with
      | active | retiring =>
          rw [before, after] at rank
          exact absurd rank (by decide)
      | retired =>
          show since + grace ≤ later + allowance
          dsimp only at serves
          omega

end Ages

end SigningKey

end AuthStartpack
