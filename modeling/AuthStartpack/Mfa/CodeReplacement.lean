import AuthStartpack.Program.Faults
import AuthStartpack.Services.Mfa.TotpService

/-!
Owns when the recovery codes of a user are replaced in one piece. The old codes
are deleted by a statement of its own, and a notification follows the save of
the new ones, so a fault in between loses the old codes, and a fault after the
save leaves new codes that nobody has seen.
-/

namespace AuthStartpack

/-- The stored recovery codes of a user. -/
def Db.codesOf (db : Db) (userId : Guid) : List RecoveryCode :=
  db.recoveryCodes.filter (·.userId = userId)

namespace TotpService

/-- Ids of new rows are not taken, and a credential has its user. -/
structure CodesSound (world : World) : Prop where
  fresh : ∀ row ∈ world.db.recoveryCodes, row.id < world.supply
  owned : ∀ credential ∈ world.db.totpCredentials, world.db.hasUser credential.userId = true

/-- The codes are hashed under these rows, unused. -/
def Stored (services : Services) (codes : List String) (rows : List RecoveryCode) : Prop :=
  List.Forall₂ (fun code (row : RecoveryCode) =>
    (∃ salt, row.codeHash = services.passwordHasher.hashSecret code salt) ∧ row.usedAt = none)
    codes rows

/-- All or nothing, by what the call ended with. -/
def ReplacesAtomically (services : Services) (userId : Guid) (before : Db)
    (outcome : Except AppException RecoveryCodesResponse) (after : Db) : Prop :=
  match outcome with
  | .ok response => Stored services response.codes (after.codesOf userId)
  | .error _ =>
      after.codesOf userId = before.codesOf userId ∧
        after.totpCredentials.filter (·.userId = userId) =
          before.totpCredentials.filter (·.userId = userId)

variable {services : Services} {fault : AppException} {inputs : ℕ → Input} {userId : Guid}
variable {position : ℕ} {world : World} {failed : ℕ → World → Prop}

/-- Runs in which the database may fail at any step. -/
abbrev GlidesFrom (fault : AppException) (inputs : ℕ → Input) {α : Type} (program : Action α)
    (position count : ℕ) (world : World) (post : α → World → Prop) (failed : ℕ → World → Prop) :
    Prop :=
  program.Glides Input.transient fault inputs position count world post failed

/-! ### The new rows -/

/-- Steps that only draw. -/
theorem glides_draw (fails : failed position world) :
    GlidesFrom fault inputs Action.draw position 1 world
      (fun number after => number = world.supply ∧
        after = { world with supply := world.supply + 1 }) failed :=
  .atomically ⟨_, rfl, rfl, rfl⟩ fails

theorem glides_utcNow (fails : failed position world) :
    GlidesFrom fault inputs Action.utcNow position 1 world
      (fun now after => now = (inputs position).now ∧ after = world) failed :=
  .atomically ⟨_, rfl, rfl, rfl⟩ fails

theorem glides_query {α : Type} {read : Db → α} (fails : failed position world) :
    GlidesFrom fault inputs (Action.query read) position 1 world
      (fun value after => value = read world.db ∧ after = world) failed :=
  .atomically ⟨_, rfl, rfl, rfl⟩ fails

theorem glides_queryOrThrow {α : Type} {read : Db → Except AppException α} {value : α}
    (answers : read world.db = .ok value) (fails : failed position world) :
    GlidesFrom fault inputs (Action.queryOrThrow read) position 1 world
      (fun found after => found = value ∧ after = world) failed :=
  .atomically ⟨value, answers, rfl, rfl⟩ fails

theorem glides_saveChanges {changes : Instant → Db → Except AppException Db}
    {events : Db → List Event} {post : Unit → World → Prop}
    (saves : ∃ db, changes (inputs position).now world.db = .ok db ∧ post () { world with db })
    (fails : failed position world) :
    GlidesFrom fault inputs (Action.saveChanges changes events) position 1 world post failed := by
  refine .atomically ?_ fails
  obtain ⟨db, saved, holds⟩ := saves
  rw [saved]
  exact ⟨(), rfl, holds⟩

theorem glides_newCodes (count : ℕ) (fails : ∀ reached after, position ≤ reached →
      reached < position + count → after.db = world.db → failed reached after) :
    GlidesFrom fault inputs (newCodes services count) position count world
      (fun codes after => codes.length = count ∧
        after = { world with supply := world.supply + count }) failed := by
  induction count generalizing position world with
  | zero => exact .pure ⟨rfl, rfl⟩
  | succ count inductionHypothesis =>
      rw [newCodes, Nat.add_comm count 1] at *
      refine .bind (glides_draw (fails _ _ (Nat.le_refl _) (by omega) rfl)) ?_
      rintro number after ⟨-, rfl⟩
      refine .map (inductionHypothesis ?_) ?_
      · intro reached later low high same
        exact fails reached later (by omega) (by omega) same
      · rintro codes later ⟨length, rfl⟩
        exact ⟨by simp [length, Nat.add_comm], by simp [Nat.add_comm, Nat.add_left_comm]⟩

/-- The new rows are of this user, not stored, and their ids were drawn one after the other. -/
structure NewRows (services : Services) (userId : Guid) (supply : ℕ) (codes : List String)
    (rows : List RecoveryCode) : Prop where
  stored : Stored services codes rows
  owned : ∀ row ∈ rows, row.userId = userId
  drawn : ∀ row ∈ rows, supply ≤ row.id
  distinct : (rows.map RecoveryCode.id).Nodup

theorem glides_newRecoveryCodes (codes : List String) (fails : ∀ reached after, position ≤ reached →
      reached < position + 2 * codes.length → after.db = world.db → failed reached after) :
    GlidesFrom fault inputs (newRecoveryCodes services userId codes) position
      (2 * codes.length) world
      (fun rows after => NewRows services userId world.supply codes rows ∧ after.db = world.db)
      failed := by
  induction codes generalizing position world with
  | nil => exact .pure ⟨⟨.nil, nofun, nofun, .nil⟩, rfl⟩
  | cons code rest inductionHypothesis =>
      have count : 2 * (code :: rest).length = 1 + (1 + 2 * rest.length) := by simp; omega
      rw [count] at fails ⊢
      refine .bind (glides_draw (fails _ _ (Nat.le_refl _) (by omega) rfl)) ?_
      rintro id after ⟨rfl, rfl⟩
      refine .bind (glides_draw (fails _ _ (by omega) (by omega) rfl)) ?_
      rintro salt later ⟨-, rfl⟩
      refine .map (inductionHypothesis ?_) ?_
      · intro reached final low high same
        exact fails reached final (by omega) (by omega) same
      · rintro rows final ⟨new, same⟩
        refine ⟨⟨.cons ⟨⟨salt, rfl⟩, rfl⟩ new.stored, ?_, ?_, ?_⟩, same⟩
        · rintro row (_ | ⟨_, member⟩)
          · rfl
          · exact new.owned row member
        · rintro row (_ | ⟨_, member⟩)
          · exact Nat.le_refl _
          · exact Nat.le_of_succ_le (Nat.le_of_succ_le (new.drawn row member))
        · rw [List.map_cons, List.nodup_cons]
          refine ⟨?_, new.distinct⟩
          intro again
          obtain ⟨row, member, same⟩ := List.mem_map.mp again
          have : world.supply + 1 + 1 ≤ row.id := new.drawn row member
          exact absurd same (Nat.ne_of_gt (Nat.lt_of_succ_le (Nat.le_of_succ_le this)))

theorem insertRecoveryCode_eq_ok {db after : Db} {now : Instant} {row : RecoveryCode} :
    db.insertRecoveryCode now row = .ok after ↔
      ((∀ other ∈ db.recoveryCodes, other.id ≠ row.id) ∧ db.hasUser row.userId = true) ∧
        after = { db with
          recoveryCodes :=
            db.recoveryCodes ++ [{ row with createdAt := now, updatedAt := now }] } := by
  simp only [Db.insertRecoveryCode, bind_eq_ok, pure_eq_ok, insertRow_eq_ok]
  simp

/-- The rows with the time stamps of a save. -/
def stamped (now : Instant) (rows : List RecoveryCode) : List RecoveryCode :=
  rows.map fun row => { row with createdAt := now, updatedAt := now }

/-- New rows are inserted as they are, except for the time stamps. -/
theorem insertRecoveryCodes_succeeds {rows : List RecoveryCode} {db : Db} {now : Instant}
    (user : db.hasUser userId = true) (owned : ∀ row ∈ rows, row.userId = userId)
    (distinct : (rows.map RecoveryCode.id).Nodup)
    (fresh : ∀ row ∈ rows, ∀ other ∈ db.recoveryCodes, other.id ≠ row.id) :
    rows.foldlM (fun db row => db.insertRecoveryCode now row) db = .ok { db with
      recoveryCodes := db.recoveryCodes ++ stamped now rows } := by
  induction rows generalizing db with
  | nil => simp [pure, Except.pure, stamped]
  | cons row rest inductionHypothesis =>
      rw [List.map_cons, List.nodup_cons] at distinct
      have first := (@insertRecoveryCode_eq_ok db _ now row).mpr
        ⟨⟨fresh row List.mem_cons_self, (owned row List.mem_cons_self).symm ▸ user⟩, rfl⟩
      rw [List.foldlM_cons, first]
      have later := @inductionHypothesis { db with
        recoveryCodes := db.recoveryCodes ++ [{ row with createdAt := now, updatedAt := now }] }
        user (fun other member => owned other (.tail _ member)) distinct.2 ?_
      · exact later.trans (by simp [stamped])
      · intro other member stored among
        rcases List.mem_append.mp among with old | new
        · exact fresh other (.tail _ member) stored old
        · obtain rfl := List.mem_singleton.mp new
          intro same
          exact distinct.1 (List.mem_map.mpr ⟨other, member, same.symm⟩)

/-! ### The replacement -/

/-- After the first statement. -/
def withoutCodes (userId : Guid) (db : Db) : Db :=
  { db with recoveryCodes := Table.deleteWhere (·.userId = userId) db.recoveryCodes }

theorem codesOf_withoutCodes {db : Db} : (withoutCodes userId db).codesOf userId = [] := by
  simp [withoutCodes, Db.codesOf, Table.deleteWhere]

/-- After the save: the user has the new codes and no other ones. -/
structure Replaced (services : Services) (userId : Guid) (supply : ℕ) (codes : List String)
    (after : Db) : Prop where
  stored : Stored services codes (after.codesOf userId)
  new : ∀ row ∈ after.codesOf userId, supply ≤ row.id

/-- A save before which the old codes have gone. -/
theorem replaced_of_newRows {rows : List RecoveryCode} {codes : List String} {db pendingDb : Db}
    {supply : ℕ} {now : Instant} (new : NewRows services userId supply codes rows)
    (fresh : ∀ row ∈ db.recoveryCodes, row.id < supply)
    (others : pendingDb.recoveryCodes = (withoutCodes userId db).recoveryCodes)
    (user : pendingDb.hasUser userId = true) :
    ∃ recoveryCodes,
      rows.foldlM (fun db row => db.insertRecoveryCode now row) pendingDb =
        .ok { pendingDb with recoveryCodes } ∧
      Replaced services userId supply codes { pendingDb with recoveryCodes } := by
  have apart : ∀ row ∈ rows, ∀ other ∈ pendingDb.recoveryCodes, other.id ≠ row.id := by
    intro row member other stored
    rw [others] at stored
    have old := fresh other (List.mem_of_mem_filter stored)
    exact Nat.ne_of_lt (Nat.lt_of_lt_of_le old (new.drawn row member))
  have none : pendingDb.recoveryCodes.filter (·.userId = userId) = [] := by
    rw [others]
    exact codesOf_withoutCodes
  have kept : (pendingDb.recoveryCodes ++ stamped now rows).filter (·.userId = userId) =
      stamped now rows := by
    rw [List.filter_append, none, List.nil_append]
    apply List.filter_eq_self.mpr
    intro row member
    obtain ⟨original, among, rfl⟩ := List.mem_map.mp member
    simpa using new.owned original among
  refine ⟨_, insertRecoveryCodes_succeeds user new.owned new.distinct apart, ?_, ?_⟩
  · show Stored services codes ((pendingDb.recoveryCodes ++ stamped now rows).filter _)
    rw [kept]
    exact List.forall₂_map_right_iff.mpr new.stored
  · show ∀ row ∈ (pendingDb.recoveryCodes ++ stamped now rows).filter _, _
    rw [kept]
    intro row member
    obtain ⟨original, among, rfl⟩ := List.mem_map.mp member
    exact new.drawn original among

/-- What a fault leaves behind, by the step that it strikes, where `start` deletes the old codes. -/
structure LeftBehind (services : Services) (userId : Guid) (world : World) (start : ℕ)
    (reached : ℕ) (after : World) : Prop where
  early : reached ≤ start → after.db = world.db
  between : start < reached → reached ≤ start + 32 → after.db = withoutCodes userId world.db
  late : start + 32 < reached → ∃ codes : List String, codes ≠ [] ∧
    Replaced services userId world.supply codes after.db

theorem glides_replace {pending : Instant → Db → Except AppException Db} {events : Db → List Event}
    {base : World} {start : ℕ} (db : world.db = base.db) (supply : base.supply ≤ world.supply)
    (fresh : ∀ row ∈ base.db.recoveryCodes, row.id < base.supply)
    (pends : ∀ now, ∃ pendingDb, pending now (withoutCodes userId base.db) = .ok pendingDb ∧
      pendingDb.recoveryCodes = (withoutCodes userId base.db).recoveryCodes ∧
      pendingDb.users = base.db.users)
    (user : base.db.hasUser userId = true) :
    GlidesFrom fault inputs (replaceRecoveryCodesAsync services userId pending events)
      start 33 world
      (fun response after => response.codes ≠ [] ∧ after.db.users = base.db.users ∧
        Replaced services userId base.supply response.codes after.db)
      (LeftBehind services userId base start) := by
  have between : ∀ reached (after : World), start < reached → reached ≤ start + 32 →
      after.db = withoutCodes userId base.db →
        LeftBehind services userId base start reached after :=
    fun reached after low high same =>
      ⟨fun early => absurd low (Nat.not_lt.mpr early), fun _ _ => same, fun late => by omega⟩
  -- 1 delete, 10 codes, 20 numbers for their rows, 1 clock reading and 1 save
  have count : 33 = 1 + (10 + (20 + (1 + 1))) := rfl
  unfold replaceRecoveryCodesAsync
  rw [count]
  have deletes : GlidesFrom fault inputs
      (Action.execute (fun db => db.recoveryCodes.countP (·.userId = userId))
        (withoutCodes userId) fun _ => []) start 1 world
      (fun _ after => after = { world with db := withoutCodes userId base.db })
      (LeftBehind services userId base start) :=
    .atomically ⟨_, rfl, by rw [← db]⟩
      ⟨fun _ => db, fun late => absurd late (Nat.lt_irrefl _), fun late => by omega⟩
  refine .bind deletes ?_
  rintro _ _ rfl
  refine .bind (glides_newCodes recoveryCodeCount ?_) ?_
  · intro reached after low high same
    unfold recoveryCodeCount at high
    exact between _ _ (by omega) (by omega) same
  rintro codes _ ⟨length, rfl⟩
  have twenty : 20 = 2 * codes.length := by rw [length]; rfl
  rw [twenty]
  refine .bind (glides_newRecoveryCodes codes ?_) ?_
  · intro reached after low high same
    exact between _ _ (by omega) (by omega) same
  rintro rows created ⟨new, same⟩
  refine .bind (glides_utcNow (between _ _ (by omega) (by omega) same)) ?_
  rintro generatedAt dated ⟨-, rfl⟩
  refine .map
    (show GlidesFrom fault inputs _ (start + 1 + 10 + 2 * codes.length + 1) 1 dated (fun _ after =>
    after.db.users = base.db.users ∧ Replaced services userId base.supply codes after.db) _ from
      glides_saveChanges ?_ (between _ _ (by omega) (by omega) same)) ?_
  · obtain ⟨pendingDb, sent, others, users⟩ :=
      pends (inputs (start + 1 + 10 + 2 * codes.length + 1)).now
    have drawn : ∀ row ∈ rows, base.supply ≤ row.id := fun row member =>
      Nat.le_trans (Nat.le_add_right_of_le supply) (new.drawn row member)
    have known : pendingDb.hasUser userId = true := by
      rw [Db.hasUser, users]
      exact user
    obtain ⟨recoveryCodes, inserted, replaced⟩ :=
      replaced_of_newRows ⟨new.stored, new.owned, drawn, new.distinct⟩ fresh others known
    exact ⟨{ pendingDb with recoveryCodes },
      bind_eq_ok.mpr ⟨pendingDb, same ▸ sent, inserted⟩, users, replaced⟩
  · rintro _ after ⟨users, replaced⟩
    exact ⟨List.ne_nil_of_length_eq_add_one length, users, replaced⟩

/-! ### The whole operations -/

theorem glides_notifyAsync {eventName : String} {after : World}
    (user : after.db.hasUser userId = true)
    (fails : ∀ reached later, position ≤ reached → reached < position + 3 → later.db = after.db →
      failed reached later) :
    GlidesFrom fault inputs
      (SecurityNotificationService.notifyAsync none userId eventName) position 3
      after (fun _ later => later.db = after.db) failed := by
  obtain ⟨row, found⟩ : ∃ row, after.db.users.find? (·.id = userId) = some row := by
    obtain ⟨row, member, same⟩ := List.any_eq_true.mp user
    exact Option.isSome_iff_exists.mp (List.find?_isSome.mpr ⟨row, member, same⟩)
  have count : 3 = 1 + (1 + 1) := rfl
  unfold SecurityNotificationService.notifyAsync
  rw [count]
  have finds :
      GlidesFrom fault inputs (SecurityNotificationService.find none userId) position 1 after
      (fun answer later => answer = some row ∧ later = after) failed :=
    .atomically ⟨_, rfl, found, rfl⟩ (fails _ _ (Nat.le_refl _) (by omega) rfl)
  refine .bind finds ?_
  rintro _ _ ⟨rfl, rfl⟩
  change GlidesFrom fault inputs (Action.utcNow >>= _) _ _ _ _ _
  refine .bind (glides_utcNow (fails _ _ (by omega) (by omega) rfl)) ?_
  rintro occurredAt later ⟨-, rfl⟩
  exact .atomically ⟨_, rfl, rfl⟩ (fails _ _ (by omega) (by omega) rfl)

/-- The replacement with its notification. -/
theorem glides_replaceNotifying {pending : Instant → Db → Except AppException Db}
    {events : Db → List Event} {eventName : String} {start : ℕ}
    (fresh : ∀ row ∈ world.db.recoveryCodes, row.id < world.supply)
    (pends : ∀ now, ∃ pendingDb, pending now (withoutCodes userId world.db) = .ok pendingDb ∧
      pendingDb.recoveryCodes = (withoutCodes userId world.db).recoveryCodes ∧
      pendingDb.users = world.db.users)
    (user : world.db.hasUser userId = true) :
    GlidesFrom fault inputs (do
        let recoveryCodes ← replaceRecoveryCodesAsync services userId pending events
        SecurityNotificationService.notifyAsync none userId eventName
        return recoveryCodes) start 36 world
      (fun response after => Replaced services userId world.supply response.codes after.db)
      (LeftBehind services userId world start) := by
  have count : 36 = 33 + 3 := rfl
  rw [count]
  refine .bind (glides_replace rfl (Nat.le_refl _) fresh pends user) ?_
  rintro response after ⟨nonempty, users, replaced⟩
  have known : after.db.hasUser userId = true := by
    rw [Db.hasUser, users]
    exact user
  refine .map (glides_notifyAsync known ?_) ?_
  · intro reached later low high same
    refine ⟨fun early => by omega, fun _ early => by omega, fun _ => ⟨_, nonempty, ?_⟩⟩
    exact same ▸ replaced
  · intro _ later same
    exact same ▸ replaced

/-- The first fault strikes between the delete of the old codes and the end of the call, and up to
the save there were codes to lose. -/
def LosesCodes (inputs : ℕ → Input) (userId : Guid) (db : Db) (start : ℕ) : Prop :=
  ∃ position, Program.FirstStruck Input.transient inputs 0 position ∧ start < position ∧
    position < start + 36 ∧ (position ≤ start + 32 → db.codesOf userId ≠ [])

variable {start : ℕ}

theorem replacesAtomically_iff {program : Action RecoveryCodesResponse}
    (fresh : ∀ row ∈ world.db.recoveryCodes, row.id < world.supply)
    (glides : GlidesFrom fault inputs program 0 (start + 36) world
      (fun response after => Replaced services userId world.supply response.codes after.db)
      (LeftBehind services userId world start)) :
    (program.Ends Input.transient fault inputs 0 world fun outcome after _ =>
      ReplacesAtomically services userId world.db outcome after.db) ↔
        ¬ LosesCodes inputs userId world.db start := by
  unfold GlidesFrom Program.Glides at glides
  unfold Program.Ends at *
  generalize program.runStruck Input.transient fault inputs 0 world = ended at *
  obtain ⟨outcome, after, reached⟩ := ended
  dsimp only at *
  rcases glides with ⟨response, rfl, replaced, rfl, clear⟩ | ⟨rfl, left, struck, before⟩
  · refine iff_of_true replaced.stored ?_
    rintro ⟨position, struck, -, inside, -⟩
    have := struck.not_clear clear
    omega
  · have unique : ∀ position, Program.FirstStruck Input.transient inputs 0 position →
        position = reached := fun position first => first.unique struck
    rcases Nat.lt_or_ge start reached with passed | early
    · rcases Nat.lt_or_ge (start + 32) reached with late | between
      · -- the new codes are stored, and the call has thrown
        obtain ⟨codes, nonempty, replaced⟩ := left.late late
        refine iff_of_false ?_ fun spared =>
          spared ⟨reached, struck, passed, by omega, fun early => by omega⟩
        rintro ⟨same, -⟩
        obtain ⟨row, member⟩ : ∃ row, row ∈ after.db.codesOf userId := by
          apply List.exists_mem_of_ne_nil
          intro none
          have stored : List.Forall₂ _ codes (after.db.codesOf userId) := replaced.stored
          rw [none] at stored
          cases stored
          exact nonempty rfl
        have new := replaced.new row member
        rw [same] at member
        exact Nat.not_lt.mpr new (fresh row (List.mem_of_mem_filter member))
      · -- the old codes are gone
        have gone := left.between passed between
        constructor
        · rintro ⟨same, -⟩ ⟨position, first, -, -, lost⟩
          apply lost (unique position first ▸ between)
          rw [← same]
          rw [gone]
          exact codesOf_withoutCodes
        · intro spared
          have none : world.db.codesOf userId = [] := by
            by_contra some
            exact spared ⟨reached, struck, passed, by omega, fun _ => some⟩
          show after.db.codesOf userId = _ ∧ after.db.totpCredentials.filter _ = _
          rw [gone, codesOf_withoutCodes, none]
          exact ⟨rfl, rfl⟩
    · refine iff_of_true ?_ ?_
      · show after.db.codesOf userId = _ ∧ after.db.totpCredentials.filter _ = _
        rw [left.early early]
        exact ⟨rfl, rfl⟩
      · rintro ⟨position, first, passed, -, -⟩
        have := unique position first
        omega

/-! ### Regenerating -/

/-- A run that throws before it has written anything. -/
def Refuses (fault : AppException) (inputs : ℕ → Input) {α : Type} (program : Action α)
    (position : ℕ) (world : World) : Prop :=
  program.Ends Input.transient fault inputs position world fun outcome after _ =>
    after.db = world.db ∧ ∃ exception, outcome = .error exception

theorem refuses_throw {α : Type} {exception : AppException} :
    Refuses fault inputs (throw exception : Action α) position world := ⟨rfl, _, rfl⟩

/-- After a step that reads, the rest is refused. -/
theorem refuses_bind {α β : Type} {act : Input → World → Except AppException β × World × List Event}
    {rest : β → Action α} (reads : (act (inputs position) world).2.1 = world)
    (refuses : ∀ value, (act (inputs position) world).1 = .ok value →
      Refuses fault inputs (rest value) (position + 1) world) :
    Refuses fault inputs (Program.atomically act >>= rest) position world := by
  unfold Refuses
  rw [Program.ends_bind, Program.ends_atomically]
  by_cases struck : (inputs position).transient = true
  · rw [if_pos struck]
    exact ⟨rfl, _, rfl⟩
  · rw [if_neg struck, reads]
    cases outcome : (act (inputs position) world).1 with
    | ok value => exact refuses value outcome
    | error exception => exact ⟨rfl, _, rfl⟩

theorem Refuses.atomic {program : Action RecoveryCodesResponse}
    (refuses : Refuses fault inputs program 0 world) :
    program.Ends Input.transient fault inputs 0 world fun outcome after _ =>
      ReplacesAtomically services userId world.db outcome after.db := by
  refine Program.Ends.mono refuses ?_
  rintro outcome after - ⟨same, exception, rfl⟩
  show after.db.codesOf userId = _ ∧ after.db.totpCredentials.filter _ = _
  rw [same]
  exact ⟨rfl, rfl⟩

theorem hasUser_of_enabled (sound : CodesSound world) {credential : TotpCredential}
    (member : credential ∈ world.db.totpCredentials) (same : credential.userId = userId) :
    world.db.hasUser userId = true := same ▸ sound.owned credential member

/-- The branch of `RegenerateRecoveryCodesAsync` that replaces the codes. -/
def enabled (userId : Guid) (db : Db) : Bool := db.totpCredentials.any (enabledFor userId)

theorem regenerate_atomic_iff (sound : CodesSound world) :
    ((regenerateRecoveryCodesAsync services userId).Ends Input.transient fault inputs 0 world
      fun outcome after _ => ReplacesAtomically services userId world.db outcome after.db) ↔
        ¬ (enabled userId world.db = true ∧ LosesCodes inputs userId world.db 1) := by
  by_cases passes : enabled userId world.db = true
  · obtain ⟨credential, member, hit⟩ := List.any_eq_true.mp passes
    have user := hasUser_of_enabled sound member (by simpa using (Bool.and_eq_true_iff.mp hit).1)
    have glides : GlidesFrom fault inputs (regenerateRecoveryCodesAsync services userId) 0 (1 + 36)
        world (fun response after => Replaced services userId world.supply response.codes after.db)
        (LeftBehind services userId world 1) := by
      refine .bind (glides_query ⟨fun _ => rfl, fun late => by omega, fun late => by omega⟩) ?_
      rintro _ after ⟨rfl, unchanged⟩
      rw [unchanged]
      change GlidesFrom fault inputs (if (!enabled userId world.db) = true then _ else _) _ _ _ _ _
      rw [passes, if_neg (by decide)]
      exact glides_replaceNotifying sound.fresh (fun _ => ⟨_, rfl, rfl, rfl⟩) user
    rw [replacesAtomically_iff sound.fresh glides, and_iff_right passes]
  · have refuses : Refuses fault inputs (regenerateRecoveryCodesAsync services userId) 0 world := by
      refine refuses_bind rfl ?_
      rintro _ ⟨⟩
      change Refuses fault inputs (if (!enabled userId world.db) = true then _ else _) _ _
      rw [if_pos (by simpa using passes)]
      exact refuses_throw
    exact iff_of_true refuses.atomic fun failed => passes failed.1

/-! ### Confirming -/

/-- The branch of `ConfirmAsync` that replaces the codes: the code matches at this reading. -/
def accepts (services : Services) (userId : Guid) (code : String) (now : Instant)
    (db : Db) : Bool :=
  match db.totpCredentials.filter (·.userId = userId) with
  | [credential] => (services.totp.unprotect credential.secretEncrypted).any fun secret =>
      (services.totp.verifyTotp secret now code).isSome
  | _ => false

theorem updateTotpCredential_pends {credential confirmed : TotpCredential} {db : Db}
    (member : credential ∈ db.totpCredentials) (now : Instant) :
    ∃ pendingDb, (withoutCodes userId db).updateTotpCredential now credential confirmed =
      .ok pendingDb ∧
      pendingDb.recoveryCodes = (withoutCodes userId db).recoveryCodes ∧
      pendingDb.users = db.users := by
  unfold Db.updateTotpCredential
  by_cases same : confirmed = credential
  · rw [if_pos same]
    exact ⟨_, rfl, rfl, rfl⟩
  · have hits : (withoutCodes userId db).totpCredentials.any (·.id = credential.id) = true :=
      List.any_eq_true.mpr ⟨credential, member, by simp⟩
    rw [if_neg same, updateRow, if_pos hits]
    exact ⟨_, rfl, rfl, rfl⟩

theorem glides_matchTotp {credential : TotpCredential} {secret code : String}
    (opens : services.totp.unprotect credential.secretEncrypted = some secret)
    (fails : failed position world) :
    GlidesFrom fault inputs (matchTotp services credential code) position 1 world
      (fun found after => found = services.totp.verifyTotp secret (inputs position).now code ∧
        after = world) failed := by
  unfold matchTotp
  rw [opens]
  change GlidesFrom fault inputs (Action.utcNow >>= _) _ _ _ _ _
  refine .map (glides_utcNow fails) ?_
  rintro _ _ ⟨rfl, rfl⟩
  exact ⟨rfl, rfl⟩

theorem refuses_matchTotp {α : Type} {credential : TotpCredential} {code : String}
    {rest : ℤ → Action α}
    (rejected : ∀ secret, services.totp.unprotect credential.secretEncrypted = some secret →
      services.totp.verifyTotp secret (inputs position).now code = none) :
    Refuses fault inputs (do
      let matched ← Action.orThrow .invalidToken (← matchTotp services credential code)
      rest matched) position world := by
  unfold matchTotp
  cases opens : services.totp.unprotect credential.secretEncrypted with
  | none => exact refuses_throw
  | some secret =>
      change Refuses fault inputs ((Action.utcNow >>= fun now =>
        (pure (services.totp.verifyTotp secret now code) : Action (Option ℤ))) >>= _) _ _
      rw [Program.bind_assoc]
      refine refuses_bind rfl ?_
      rintro _ ⟨⟩
      change Refuses fault inputs (Action.orThrow .invalidToken
        (services.totp.verifyTotp secret (inputs position).now code) >>= _) _ _
      rw [rejected secret opens]
      exact refuses_throw

/-- Without exactly one credential whose secret has the code, nothing is written. -/
theorem refuses_confirmAsync {code : String}
    (rejected : accepts services userId code (inputs 1).now world.db ≠ true) :
    Refuses fault inputs (confirmAsync services userId code) 0 world := by
  refine refuses_bind rfl ?_
  intro answer read
  change Action.singleOrDefault (world.db.totpCredentials.filter (·.userId = userId)) = .ok answer
    at read
  unfold accepts at rejected
  revert read rejected
  generalize world.db.totpCredentials.filter (·.userId = userId) = credentials
  rcases credentials with _ | ⟨credential, _ | ⟨second, others⟩⟩
  · rintro - ⟨⟩
    exact refuses_throw
  · rintro rejected ⟨⟩
    change Refuses fault inputs (matchTotp services credential code >>= _) _ _
    refine refuses_matchTotp ?_
    intro secret opens
    simpa [opens] using rejected
  · rintro - ⟨⟩

theorem glides_confirmAsync (sound : CodesSound world) {code : String}
    (accepted : accepts services userId code (inputs 1).now world.db = true) :
    GlidesFrom fault inputs (confirmAsync services userId code) 0 (3 + 36) world
      (fun response after => Replaced services userId world.supply response.codes after.db)
      (LeftBehind services userId world 3) := by
  have early : ∀ reached, reached ≤ 3 → LeftBehind services userId world 3 reached world :=
    fun reached before => ⟨fun _ => rfl, fun late => by omega, fun late => by omega⟩
  unfold accepts at accepted
  split at accepted
  case h_2 => cases accepted
  case h_1 credential found =>
    obtain ⟨secret, opens, matched⟩ := (Option.any_eq_true _ _).mp accepted
    obtain ⟨timeStep, verified⟩ := Option.isSome_iff_exists.mp matched
    have among : credential ∈ world.db.totpCredentials.filter (·.userId = userId) := by simp [found]
    obtain ⟨member, same⟩ := List.mem_filter.mp among
    have user := hasUser_of_enabled sound member (by simpa using same)
    have count : 3 + 36 = 1 + (1 + (1 + 36)) := rfl
    rw [count]
    have reads : Action.singleOrDefault (world.db.totpCredentials.filter (·.userId = userId)) =
        .ok (some credential) := by
      rw [found]
      rfl
    refine .bind (glides_queryOrThrow reads (early _ (by omega))) ?_
    rintro _ after ⟨rfl, unchanged⟩
    rw [unchanged]
    change GlidesFrom fault inputs (matchTotp services credential code >>= _) _ _ _ _ _
    refine .bind (glides_matchTotp opens (early _ (by omega))) ?_
    rintro _ later ⟨rfl, quiet⟩
    rw [quiet, verified]
    change GlidesFrom fault inputs (Action.utcNow >>= _) _ _ _ _ _
    refine .bind (glides_utcNow (early _ (by omega))) ?_
    rintro confirmedAt current ⟨-, still⟩
    rw [still]
    exact glides_replaceNotifying sound.fresh (updateTotpCredential_pends member) user

theorem confirm_atomic_iff (sound : CodesSound world) {code : String} :
    ((confirmAsync services userId code).Ends Input.transient fault inputs 0 world
      fun outcome after _ => ReplacesAtomically services userId world.db outcome after.db) ↔
        ¬ (accepts services userId code (inputs 1).now world.db = true ∧
          LosesCodes inputs userId world.db 3) := by
  by_cases accepted : accepts services userId code (inputs 1).now world.db = true
  · rw [replacesAtomically_iff sound.fresh (glides_confirmAsync sound accepted),
      and_iff_right accepted]
  · exact iff_of_true (refuses_confirmAsync accepted).atomic fun failed => accepted failed.1

/-- Exactly when both operations replace the codes in one piece, whichever step the first fault
strikes. -/
theorem recoveryCodes_atomic_iff (services : Services) (fault : AppException) (inputs : ℕ → Input)
    (userId : Guid) (code : String) {world : World} (sound : CodesSound world) :
    (((confirmAsync services userId code).Ends Input.transient fault inputs 0 world
        fun outcome after _ => ReplacesAtomically services userId world.db outcome after.db) ↔
      ¬ (accepts services userId code (inputs 1).now world.db = true ∧
        LosesCodes inputs userId world.db 3)) ∧
    (((regenerateRecoveryCodesAsync services userId).Ends Input.transient fault inputs 0 world
        fun outcome after _ => ReplacesAtomically services userId world.db outcome after.db) ↔
      ¬ (enabled userId world.db = true ∧ LosesCodes inputs userId world.db 1)) :=
  ⟨confirm_atomic_iff sound, regenerate_atomic_iff sound⟩

/-- A user with an authenticator and one recovery code. -/
def enrolledWorld : World where
  db :=
    { users := [{ id := 1, email := "ada@example.test", securityStamp := 1 }]
      totpCredentials :=
        [{ id := 2, userId := 1, secretEncrypted := "$s", confirmedAt := some 5 }]
      recoveryCodes := [{ id := 3, userId := 1, codeHash := "sss$code" }] }
  supply := 4

theorem enrolledWorld_sound : CodesSound enrolledWorld := by
  constructor <;> decide

/-- The database fails at this step. -/
def failingAt (step : ℕ) (position : ℕ) : Input := ⟨10, position = step⟩

/-- A failed delete changes nothing. -/
theorem recoveryCodes_atomic_iff_sample :
    (regenerateRecoveryCodesAsync .sample 1).Ends Input.transient .dbUpdateConcurrency
      (failingAt 1) 0
      enrolledWorld fun outcome after _ =>
        ReplacesAtomically .sample 1 enrolledWorld.db outcome after.db := by
  refine (recoveryCodes_atomic_iff .sample .dbUpdateConcurrency (failingAt 1) 1 "" 
    enrolledWorld_sound).2.mpr ?_
  rintro ⟨-, position, struck, late, -⟩
  have first : position = 1 := by simpa [failingAt] using struck.struck
  omega

/-- The save of the new codes fails after the old one was deleted. -/
theorem regenerate_not_atomic : CodesSound enrolledWorld ∧
    ¬ (regenerateRecoveryCodesAsync .sample 1).Ends Input.transient .dbUpdateConcurrency
      (failingAt 33) 0 enrolledWorld fun outcome after _ =>
        ReplacesAtomically .sample 1 enrolledWorld.db outcome after.db := by
  refine ⟨enrolledWorld_sound, ?_⟩
  rw [regenerate_atomic_iff enrolledWorld_sound, not_not]
  refine ⟨by decide, 33, ⟨by omega, rfl, ?_⟩, by omega, by omega, fun _ => by decide⟩
  intro position _ before
  simp only [failingAt, decide_eq_false_iff_not]
  omega

end TotpService

end AuthStartpack
