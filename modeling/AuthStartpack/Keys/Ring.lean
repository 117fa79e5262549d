import AuthStartpack.Data.Actions
import AuthStartpack.Program.Account

/-!
Owns the abstract model of the ring of signing keys: which saves may change it,
and how. A key is added active, and only to a ring without another active key;
the status of a key moves on and never back; whatever the database refuses
changes nothing. The module does not own what the services do.
-/

namespace AuthStartpack

/-- What one save may do to a status. -/
inductive SigningKeyStatus.Moves : SigningKeyStatus → SigningKeyStatus → Prop
  | stays (status : SigningKeyStatus) : Moves status status
  | demoted : Moves .active .retiring
  | retired : Moves .retiring .retired

def SigningKeyStatus.rank : SigningKeyStatus → ℕ
  | .active => 0
  | .retiring => 1
  | .retired => 2

theorem SigningKeyStatus.Moves.rank_le {before after : SigningKeyStatus}
    (moves : before.Moves after) :
    before.rank ≤ after.rank := by
  cases moves <;> simp [SigningKeyStatus.rank]

theorem SigningKeyStatus.rank_injective {left right : SigningKeyStatus}
    (same : left.rank = right.rank) :
    left = right := by
  cases left <;> cases right <;> first | rfl | cases same

theorem SigningKeyStatus.rank_eq_zero {status : SigningKeyStatus} (first : status.rank = 0) :
    status = .active := by
  cases status <;> simp_all [SigningKeyStatus.rank]

/-- The columns of a key that no save changes. -/
structure SigningKey.Same (before after : SigningKey) : Prop where
  id : after.id = before.id
  keyId : after.keyId = before.keyId
  publicKey : after.publicKey = before.publicKey
  privateKeyProtected : after.privateKeyProtected = before.privateKeyProtected

theorem SigningKey.Same.refl (key : SigningKey) : key.Same key := ⟨rfl, rfl, rfl, rfl⟩

theorem SigningKey.Same.trans {first second third : SigningKey} (early : first.Same second)
    (late : second.Same third) : first.Same third :=
  ⟨late.id.trans early.id, late.keyId.trans early.keyId, late.publicKey.trans early.publicKey,
    late.privateKeyProtected.trans early.privateKeyProtected⟩

/-- One save, as it changes a key. -/
structure SigningKey.Evolves (before after : SigningKey) : Prop where
  same : before.Same after
  moves : before.status.Moves after.status

/-- Any number of saves, as they change a key. -/
structure SigningKey.Continues (before after : SigningKey) : Prop where
  same : before.Same after
  rank : before.status.rank ≤ after.status.rank

/-- At most one key signs. -/
def AtMostOneActive (ring : List SigningKey) : Prop :=
  ∀ left ∈ ring, ∀ right ∈ ring, left.status = .active → right.status = .active → left = right

/-- The indexes on the table. -/
structure ValidRing (ring : List SigningKey) : Prop where
  ids : Table.Keyed SigningKey.id ring
  keyIds : Table.Keyed SigningKey.keyId ring
  active : AtMostOneActive ring

/-- The events that may go with a change of the ring. -/
def Event.ConcernsKeys : Event → Prop
  | .signingKeyOffered _ _ | .signingKeysRetired _ => True
  | _ => False

/-- A key is added to the ring as the active one. -/
structure KeyAdded (before after : List SigningKey) (evolve : SigningKey → SigningKey)
    (key : SigningKey) : Prop where
  after : after = before.map evolve ++ [key]
  evolves : ∀ row ∈ before, row.Evolves (evolve row)
  alone : ∀ row ∈ before, (evolve row).status ≠ .active
  active : key.status = .active
  freshId : ∀ row ∈ before, row.id ≠ key.id
  freshKeyId : ∀ row ∈ before, row.keyId ≠ key.keyId

/-- Which event may go with which change of the ring. -/
inductive RingStep : List SigningKey → Event → List SigningKey → Prop
  | other {ring : List SigningKey} {event : Event} (silent : ¬ event.ConcernsKeys) :
      RingStep ring event ring
  | refused {ring : List SigningKey} {demoted : Option SigningKey} {offered : SigningKey} :
      RingStep ring (.signingKeyOffered demoted offered) ring
  | added {before after : List SigningKey} {demoted : Option SigningKey} {offered : SigningKey}
      (evolve : SigningKey → SigningKey) (key : SigningKey) (same : offered.Same key)
      (adds : KeyAdded before after evolve key)
      (others : ∀ row ∈ before, (∀ old, demoted = some old → row.id ≠ old.id) → evolve row = row) :
      RingStep before (.signingKeyOffered demoted offered) after
  | retired {ring keys : List SigningKey} (evolve : SigningKey → SigningKey)
      (evolves : ∀ row ∈ ring, row.Evolves (evolve row))
      (keeps : ∀ row ∈ ring, row.status = .active → (evolve row).status = .active) :
      RingStep ring (.signingKeysRetired keys) (ring.map evolve)

/-- Every key of the ring is still there, and once there is an active key there always is one. -/
structure RingKept (before after : List SigningKey) : Prop where
  keys : ∀ key ∈ before, ∃ later ∈ after, key.Continues later
  active : (∃ key ∈ before, key.status = .active) → ∃ key ∈ after, key.status = .active

namespace RingKept

theorem refl (ring : List SigningKey) : RingKept ring ring where
  keys key member := ⟨key, member, .refl key, Nat.le_refl _⟩
  active := id

theorem trans (first second third : List SigningKey) (early : RingKept first second)
    (late : RingKept second third) : RingKept first third where
  keys key member := by
    obtain ⟨middle, middleMember, same, rank⟩ := early.keys key member
    obtain ⟨later, laterMember, laterSame, laterRank⟩ := late.keys middle middleMember
    exact ⟨later, laterMember, same.trans laterSame, Nat.le_trans rank laterRank⟩
  active present := late.active (early.active present)

end RingKept

namespace RingStep

variable {before after ring : List SigningKey} {event : Event}

/-- A key that one save leaves active was active. -/
theorem active_of_evolves {row later : SigningKey} (evolves : row.Evolves later)
    (active : later.status = .active) : row.status = .active := by
  refine SigningKeyStatus.rank_eq_zero (Nat.le_zero.mp ?_)
  have ranks := evolves.moves.rank_le
  rw [active] at ranks
  exact ranks

theorem moves (step : RingStep before event after) :
    ∀ key ∈ before, ∃ later ∈ after, key.Evolves later := by
  intro key member
  cases step with
  | other | refused => exact ⟨key, member, .refl key, .stays _⟩
  | added evolve newKey same adds others =>
      rw [adds.after]
      exact ⟨evolve key, List.mem_append_left _ (List.mem_map_of_mem member),
        adds.evolves key member⟩
  | retired evolve evolves keeps =>
      exact ⟨evolve key, List.mem_map_of_mem member, evolves key member⟩

/-- Every key is added active. -/
theorem starts (step : RingStep before event after) :
    ∀ later ∈ after, (∃ key ∈ before, key.id = later.id) ∨ later.status = .active := by
  intro later member
  cases step with
  | other | refused => exact .inl ⟨later, member, rfl⟩
  | added evolve newKey same adds others =>
      rw [adds.after] at member
      rcases List.mem_append.mp member with old | new
      · obtain ⟨key, keyMember, rfl⟩ := List.mem_map.mp old
        exact .inl ⟨key, keyMember, (adds.evolves key keyMember).same.id.symm⟩
      · rw [List.mem_singleton.mp new]
        exact .inr adds.active
  | retired evolve evolves keeps =>
      obtain ⟨key, keyMember, rfl⟩ := List.mem_map.mp member
      exact .inl ⟨key, keyMember, (evolves key keyMember).same.id.symm⟩

/-- Who finds another key active than the one to demote has lost a race, and changes nothing. -/
theorem lost {demoted : Option SigningKey} {offered : SigningKey}
    (step : RingStep before (.signingKeyOffered demoted offered) after)
    (winner : ∃ row ∈ before, row.status = .active ∧ ∀ old, demoted = some old → row.id ≠ old.id) :
    after = before := by
  cases step with
  | other silent => exact absurd trivial silent
  | refused => rfl
  | added evolve newKey same adds others =>
      obtain ⟨row, member, active, other⟩ := winner
      have unchanged := others row member other
      exact absurd (unchanged ▸ active) (unchanged ▸ adds.alone row member)

theorem active_stays (step : RingStep before event after)
    (present : ∃ key ∈ before, key.status = .active) : ∃ key ∈ after, key.status = .active := by
  cases step with
  | other | refused => exact present
  | added evolve newKey same adds others =>
      rw [adds.after]
      exact ⟨newKey, List.mem_append_right _ List.mem_cons_self, adds.active⟩
  | retired evolve evolves keeps =>
      obtain ⟨key, member, active⟩ := present
      exact ⟨evolve key, List.mem_map_of_mem member, keeps key member active⟩

theorem kept (step : RingStep before event after) : RingKept before after where
  keys key member := by
    obtain ⟨later, laterMember, same, moves⟩ := step.moves key member
    exact ⟨later, laterMember, same, moves.rank_le⟩
  active := step.active_stays

theorem valid (step : RingStep before event after) (holds : ValidRing before) :
    ValidRing after := by
  cases step with
  | other | refused => exact holds
  | added evolve newKey same adds others =>
      obtain rfl := adds.after
      have ids : Table.Keyed SigningKey.id (before.map evolve) := by
        unfold Table.Keyed
        rw [Table.map_rewrite fun row member => (adds.evolves row member).same.id]
        exact holds.ids
      have keyIds : Table.Keyed SigningKey.keyId (before.map evolve) := by
        unfold Table.Keyed
        rw [Table.map_rewrite fun row member => (adds.evolves row member).same.keyId]
        exact holds.keyIds
      constructor
      · refine ids.append ?_
        intro row member
        obtain ⟨key, keyMember, rfl⟩ := List.mem_map.mp member
        rw [(adds.evolves key keyMember).same.id]
        exact adds.freshId key keyMember
      · refine keyIds.append ?_
        intro row member
        obtain ⟨key, keyMember, rfl⟩ := List.mem_map.mp member
        rw [(adds.evolves key keyMember).same.keyId]
        exact adds.freshKeyId key keyMember
      · have only : ∀ row ∈ before.map evolve ++ [newKey], row.status = .active → row = newKey := by
          intro row member active
          rcases List.mem_append.mp member with old | new
          · obtain ⟨key, keyMember, rfl⟩ := List.mem_map.mp old
            exact absurd active (adds.alone key keyMember)
          · exact List.mem_singleton.mp new
        intro left leftMember right rightMember leftActive rightActive
        exact (only left leftMember leftActive).trans (only right rightMember rightActive).symm
  | retired evolve evolves keeps =>
      constructor
      · unfold Table.Keyed
        rw [Table.map_rewrite fun row member => (evolves row member).same.id]
        exact holds.ids
      · unfold Table.Keyed
        rw [Table.map_rewrite fun row member => (evolves row member).same.keyId]
        exact holds.keyIds
      · intro left leftMember right rightMember leftActive rightActive
        obtain ⟨leftRow, leftRowMember, rfl⟩ := List.mem_map.mp leftMember
        obtain ⟨rightRow, rightRowMember, rfl⟩ := List.mem_map.mp rightMember
        rw [holds.active leftRow leftRowMember rightRow rightRowMember
          (active_of_evolves (evolves _ leftRowMember) leftActive)
          (active_of_evolves (evolves _ rightRowMember) rightActive)]

end RingStep

end AuthStartpack
