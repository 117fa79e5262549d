import AuthStartpack.Data.Alone
import AuthStartpack.Data.Frame
import AuthStartpack.Handlers.PermissionAuthorizationHandler
import AuthStartpack.Program.Pool
import AuthStartpack.Services.Users.AdminRoleService

/-!
Owns the authority of API keys in any interleaving with what gives and takes it:
keys that are created and revoked, roles that are granted and taken away. A
request is decided by what is stored while it runs, so that a revocation holds
for every request that begins after it, and no key outlives the roles of its
owner.
-/

namespace AuthStartpack

inductive AuthorityOperation
  | createKey (rounds : ℕ) (userId : Guid) (request : CreateApiKeyRequest)
  | revokeKey (userId keyId : Guid)
  | grantRole (userId roleId : Guid)
  | revokeRole (userId roleId : Guid)
  | authorize (request : HttpRequest) (permission : String)

inductive AuthorityResponse
  | keyCreated (response : CreateApiKeyResponse)
  | keyRevoked
  | roleGranted
  | roleRevoked
  | authorized (principal : ClaimsPrincipal)
  | denied

/-- A request with an API key for an action under `[RequirePermission(permission)]`. -/
def ApiKeyAuthenticationHandler.authorizeAsync (services : Services)
    (fallback : String → Option AuthorizationPolicy) (request : HttpRequest) (permission : String) :
    Action (Option ClaimsPrincipal) := do
  let result ← handleAuthenticateAsync services request
  match PermissionPolicyProvider.getPolicyAsync fallback
    (RequirePermissionAttribute.policy permission) with
  | .error exception => throw exception
  | .ok policy => return (match result, policy with
      | .success principal, some policy =>
          if policy.permissions.all
            (PermissionAuthorizationHandler.handleRequirementAsync (some principal))
              then some principal
          else none
      | _, _ => none)

def AuthorityOperation.program (services : Services)
    (fallback : String → Option AuthorizationPolicy) :
    AuthorityOperation → Action AuthorityResponse
  | createKey rounds userId request => do
      return .keyCreated (← ApiKeyService.createAsync services rounds userId request)
  | revokeKey userId keyId => do
      ApiKeyService.revokeAsync userId keyId
      return .keyRevoked
  | grantRole userId roleId => do
      AdminRoleService.grantAsync userId roleId
      return .roleGranted
  | revokeRole userId roleId => do
      AdminRoleService.revokeAsync userId roleId
      return .roleRevoked
  | authorize request permission => do
      match ← ApiKeyAuthenticationHandler.authorizeAsync services fallback request permission with
      | some principal => return .authorized principal
      | none => return .denied

/-- The roles that the operations may grant, each with its user. -/
def grants (operations : List AuthorityOperation) : List (Guid × Guid) :=
  operations.filterMap fun
    | .grantRole userId roleId => some (userId, roleId)
    | _ => none

/-! ### What all steps keep -/

/-- What no save takes from a key, nor gives back to it. -/
structure ApiKey.Persists (before after : ApiKey) : Prop where
  id : after.id = before.id
  userId : after.userId = before.userId
  scopes : after.scopes = before.scopes
  expiresAt : after.expiresAt = before.expiresAt
  revoked : before.revokedAt.isSome = true → after.revokedAt.isSome = true

theorem ApiKey.Persists.refl (key : ApiKey) : key.Persists key :=
  ⟨rfl, rfl, rfl, rfl, fun revoked => revoked⟩

theorem ApiKey.Persists.trans {first second third : ApiKey} (early : first.Persists second)
    (late : second.Persists third) : first.Persists third :=
  ⟨late.id.trans early.id, late.userId.trans early.userId, late.scopes.trans early.scopes,
    late.expiresAt.trans early.expiresAt, late.revoked ∘ early.revoked⟩

/-- The user has the role, or it may be granted. -/
def HoldsRole (granted : List (Guid × Guid)) (db : Db) (userId roleId : Guid) : Prop :=
  (userId, roleId) ∈ granted ∨
    ∃ row ∈ db.userRoles, AdminRoleService.assigns userId roleId row = true

/-- A role that the user has, or may be granted, carries the permission. -/
def MayHold (granted : List (Guid × Guid)) (db : Db) (userId : Guid) (permission : String) : Prop :=
  ∃ role ∈ db.roles, HoldsRole granted db userId role.id ∧
    permission ∈ RolePermissionMap.permissionsFor role.name

/-- Keys persist, roles are assigned only as the operations grant them, and the clock goes on. -/
structure AuthorityKept (granted : List (Guid × Guid)) (before after : State) : Prop where
  clock : before.last.now ≤ after.last.now
  keys : ∀ key ∈ before.store.db.apiKeys, ∃ later ∈ after.store.db.apiKeys, key.Persists later
  keyed : Table.Keyed ApiKey.id before.store.db.apiKeys →
    Table.Keyed ApiKey.id after.store.db.apiKeys
  assigned : ∀ userId roleId, HoldsRole granted after.store.db userId roleId →
    HoldsRole granted before.store.db userId roleId
  roles : after.store.db.roles = before.store.db.roles

namespace AuthorityKept

variable {granted : List (Guid × Guid)}

theorem refl (state : State) : AuthorityKept granted state state :=
  ⟨Int.le_refl _, fun key member => ⟨key, member, .refl key⟩, id, fun _ _ => id, rfl⟩

theorem trans (first second third : State) (early : AuthorityKept granted first second)
    (late : AuthorityKept granted second third) : AuthorityKept granted first third where
  clock := Int.le_trans early.clock late.clock
  keys key member := by
    obtain ⟨middle, middleMember, persists⟩ := early.keys key member
    obtain ⟨later, laterMember, persistsMore⟩ := late.keys middle middleMember
    exact ⟨later, laterMember, persists.trans persistsMore⟩
  keyed := late.keyed ∘ early.keyed
  assigned userId roleId := early.assigned userId roleId ∘ late.assigned userId roleId
  roles := late.roles.trans early.roles

/-- No authority that was not there, or granted since. -/
theorem mayHold {before after : State} (kept : AuthorityKept granted before after) {userId : Guid}
    {permission : String} (may : MayHold granted after.store.db userId permission) :
    MayHold granted before.store.db userId permission := by
  obtain ⟨role, member, holds, carries⟩ := may
  exact ⟨role, kept.roles ▸ member, kept.assigned _ _ holds, carries⟩

end AuthorityKept

/-- The roles whose names are read are assigned. -/
theorem mayHold_of_roleNames {granted : List (Guid × Guid)} {db : Db} {userId : Guid}
    {name permission : String}
    (read : name ∈ db.roleNames userId)
    (carries : permission ∈ RolePermissionMap.permissionsFor name) :
    MayHold granted db userId permission := by
  simp only [Db.roleNames, List.mem_flatMap, List.mem_filter, List.mem_map, decide_eq_true_eq]
    at read
  obtain ⟨row, ⟨rowMember, own⟩, role, ⟨roleMember, same⟩, rfl⟩ := read
  refine ⟨role, roleMember, .inr ⟨row, rowMember, ?_⟩, carries⟩
  simp [AdminRoleService.assigns, own, same]

/-- Any interleaving, under a clock that goes on. -/
def Law.authority (granted : List (Guid × Guid)) : Law Input World Event :=
  .concurrent Onward (AuthorityKept granted)

/-- The tables that authority is read from. -/
def Db.authority (db : Db) : List ApiKey × List UserRole × List Role :=
  (db.apiKeys, db.userRoles, db.roles)

instance (granted : List (Guid × Guid)) :
    Frames (.authority granted) (AuthorityKept granted) Db.authority fun _ => False := by
  refine Frames.concurrent .refl .trans (fun _ _ => rfl) ?_
  intro state call input world events admitted same _ _
  simp only [Db.authority, Prod.mk.injEq] at same
  obtain ⟨apiKeys, userRoles, roles⟩ := same
  constructor
  case clock => exact admitted
  case keys =>
    intro key member
    refine ⟨key, ?_, .refl key⟩
    rw [Shared.advance_store, apiKeys]
    exact member
  case keyed =>
    rw [Shared.advance_store, apiKeys]
    exact id
  case assigned =>
    unfold HoldsRole
    rw [Shared.advance_store, userRoles]
    exact fun _ _ => id
  case roles => exact roles

/-! ### The writes -/

section Writes

variable {granted : List (Guid × Guid)} {state : State} {call : ℕ} {input : Input}
variable {events : List Event}

/-- A statement that rewrites keys. -/
theorem authorityKept_of_keys (admitted : Onward state call input events) {pred : ApiKey → Bool}
    {write : ApiKey → ApiKey} (persists : ∀ key : ApiKey, key.Persists (write key)) :
    AuthorityKept granted state (state.advance call input
      ({ state.store with
          db := { state.store.db with
            apiKeys := Table.updateWhere pred write state.store.db.apiKeys } }, events)) where
  clock := admitted
  keys key member := by
    by_cases hit : pred key = true
    · exact ⟨write key, Table.mem_updateWhere_of_hit member hit, persists key⟩
    · exact ⟨key, Table.mem_updateWhere_of_not member (by simpa using hit), .refl key⟩
  keyed unique := unique.updateWhere fun key => (persists key).id
  assigned _ _ := id
  roles := rfl

/-- The insert of a key. -/
theorem authorityKept_of_insert (admitted : Onward state call input events) {row : ApiKey}
    {savedAt : Instant} {db : Db} (saved : state.store.db.insertApiKey savedAt row = .ok db) :
    AuthorityKept granted state (state.advance call input ({ state.store with db }, events)) := by
  obtain ⟨⟨fresh, -, -⟩, rfl⟩ := Db.insertApiKey_eq_ok.mp saved
  constructor
  case clock => exact admitted
  case keys => exact fun key member => ⟨key, List.mem_append_left _ member, .refl key⟩
  case keyed => exact fun unique => unique.append fresh
  case assigned => exact fun _ _ => id
  case roles => rfl

/-- A statement that assigns no role but a granted one. -/
theorem authorityKept_of_roles (admitted : Onward state call input events)
    {userRoles : List UserRole}
    (assigned : ∀ row ∈ userRoles, row ∈ state.store.db.userRoles ∨
      (row.userId, row.roleId) ∈ granted) :
    AuthorityKept granted state (state.advance call input
      ({ state.store with db := { state.store.db with userRoles } }, events)) where
  clock := admitted
  keys key member := ⟨key, member, .refl key⟩
  keyed := id
  assigned userId roleId := by
    rintro (inGrants | ⟨row, member, assigns⟩)
    · exact .inl inGrants
    · rcases assigned row member with known | new
      · exact .inr ⟨row, known, assigns⟩
      · simp only [AdminRoleService.assigns, Bool.and_eq_true, decide_eq_true_eq] at assigns
        rw [assigns.1, assigns.2] at new
        exact .inl new
  roles := rfl

end Writes

/-! ### The operations -/

section Operations

variable {granted : List (Guid × Guid)} {services : Services} {call : ℕ} {start : State}

omit services in
theorem ApiKeyService.createPrefix_kept (services : Services) (collected : List Char) (rounds : ℕ) :
    Keeps (.authority granted) (AuthorityKept granted)
      (createPrefix services collected rounds) := by
  induction rounds generalizing collected with
  | zero =>
      unfold createPrefix
      exact .ite (.throw _) (.pure _)
  | succ rounds inductionHypothesis =>
      unfold createPrefix
      exact .ite (.bind .draw fun _ => inductionHypothesis _) (.pure _)

/-- A key is created with scopes that the roles of its owner carry. -/
theorem ApiKeyService.createAsync_bounded {rounds : ℕ} {userId : Guid}
    {request : CreateApiKeyRequest} :
    (createAsync services rounds userId request).wp (.authority granted) call
      (fun outcome after => AuthorityKept granted start after ∧
        ∀ response, outcome = .ok response → ∀ scope ∈ response.scopes,
          MayHold granted start.store.db userId scope) start := by
  have calm : Calm (.authority granted) call (AuthorityKept granted) := inferInstance
  simp only [createAsync, Program.wp_bind]
  refine Action.calm_query calm ?_
  intro seen see
  rw [Program.andThen_ok]
  split
  case isTrue => exact ⟨see, by rintro _ ⟨⟩⟩
  case isFalse within =>
  have carried : ∀ scope ∈ request.scopes, MayHold granted start.store.db userId scope := by
    intro scope member
    simp only [List.any_eq_true, Bool.not_eq_true', not_exists, not_and, Bool.not_eq_false,
      List.contains_iff_mem, List.mem_flatMap] at within
    obtain ⟨name, read, carries⟩ := within scope member
    exact see.mayHold (mayHold_of_roleNames read carries)
  refine Program.wp_bind_of ((createPrefix_kept services [] rounds).after see) ?_ ?_
  case refine_2 => exact fun _ _ failed => ⟨failed, by rintro _ ⟨⟩⟩
  intro keyPrefix made make
  rw [Program.wp_bind]
  refine Action.calm_draw calm ?_
  intro _ secretDrawn beforeSecret drawSecret _
  have reached := (make.trans _ _ _ beforeSecret).trans _ _ _ drawSecret
  rw [Program.andThen_ok, Program.wp_bind]
  refine Action.calm_draw calm ?_
  intro _ idDrawn beforeId drawId _
  have known := (reached.trans _ _ _ beforeId).trans _ _ _ drawId
  rw [Program.andThen_ok, Program.wp_bind]
  refine Action.calm_draw calm ?_
  intro _ saltDrawn beforeSalt drawSalt _
  have ready := (known.trans _ _ _ beforeSalt).trans _ _ _ drawSalt
  rw [Program.andThen_ok, Program.wp_bind]
  refine Action.wp_saveChanges calm ?_ ?_
  · intro current input db since saved admitted
    have kept : AuthorityKept granted current (current.advance call input
        ({ current.store with db }, [])) := authorityKept_of_insert admitted saved
    refine ⟨kept, ?_⟩
    rw [Program.andThen_ok]
    have stored := (ready.trans _ _ _ since).trans _ _ _ kept
    refine Program.wp_bind_of ((Keeps.notifyAsync none userId "API key created").after stored) ?_ ?_
    · intro _ after notified
      refine ⟨notified, ?_⟩
      rintro _ ⟨⟩ scope member
      exact carried scope (List.mem_eraseDups.mp member)
    · exact fun _ _ failed => ⟨failed, by rintro _ ⟨⟩⟩
  · intro current later exception now since waits _
    exact ⟨(ready.trans _ _ _ since).trans _ _ _ waits, by rintro _ ⟨⟩⟩

/-- The save of a revocation. -/
theorem updateApiKey_revokes {key : ApiKey} {now savedAt : Instant} {db after : Db}
    (unrevoked : key.revokedAt = none)
    (saved : db.updateApiKey savedAt key { key with revokedAt := some now } = .ok after) :
    ∃ pred write, (∀ stored : ApiKey, stored.Persists (write stored)) ∧
      after = { db with apiKeys := Table.updateWhere pred write db.apiKeys } ∧
      ∃ row ∈ after.apiKeys, row.id = key.id ∧ row.revokedAt.isSome = true := by
  obtain ⟨hit, rfl⟩ := Db.updateApiKey_eq_ok.mp saved
  have differs : { key with revokedAt := some now } ≠ key := by
    intro equal
    have revoked := congrArg ApiKey.revokedAt equal
    rw [unrevoked] at revoked
    cases revoked
  refine ⟨_, _, ?_, rfl, ?_⟩
  · intro stored
    constructor
    all_goals simp [ApiKey.merge, changed, unrevoked]
  · rcases hit with equal | ⟨row, member, same⟩
    · exact absurd equal differs
    · refine ⟨_, Table.mem_updateWhere_of_hit member (by simp [same, differs]), same, ?_⟩
      simp [ApiKey.merge, changed, unrevoked]

/-- A key that was revoked stays so. -/
theorem ApiKeyService.revokeAsync_revokes {userId keyId : Guid} :
    (revokeAsync userId keyId).wp (.authority granted) call
      (fun outcome after => AuthorityKept granted start after ∧
        (outcome = .ok () → ∃ key ∈ after.store.db.apiKeys, key.id = keyId ∧
          key.revokedAt.isSome = true)) start := by
  have calm : Calm (.authority granted) call (AuthorityKept granted) := inferInstance
  simp only [revokeAsync, Program.wp_bind]
  refine Action.calm_queryOrThrow calm ?_
  intro seen see
  cases found : Action.singleOrDefault (seen.store.db.apiKeys.filter fun key =>
      key.id = keyId && key.userId = userId && key.revokedAt = none) with
  | error exception => exact ⟨see, by rintro ⟨⟩⟩
  | ok candidate =>
  rw [Program.andThen_ok, Program.wp_bind, Action.wp_orThrow]
  cases candidate with
  | none => exact ⟨see, by rintro ⟨⟩⟩
  | some key =>
  obtain ⟨-, matched⟩ := Action.mem_of_singleOrDefault found
  simp only [Bool.and_eq_true, decide_eq_true_eq] at matched
  obtain ⟨⟨same, -⟩, unrevoked⟩ := matched
  dsimp only
  rw [Program.andThen_ok, Program.wp_bind]
  refine Action.calm_utcNow calm ?_
  intro read reading
  have reached := see.trans _ _ _ reading
  rw [Program.andThen_ok, Program.wp_bind]
  refine Action.wp_saveChanges calm ?_ ?_
  · intro current input db since saved admitted
    obtain ⟨pred, write, persists, rfl, row, member, rowSame, revoked⟩ :=
      updateApiKey_revokes unrevoked saved
    have stored : AuthorityKept granted current (current.advance call input
        ({ current.store with
            db := { current.store.db with
              apiKeys := Table.updateWhere pred write current.store.db.apiKeys } }, [])) :=
      authorityKept_of_keys admitted persists
    refine ⟨stored, ?_⟩
    rw [Program.andThen_ok]
    have notifies : Keeps (.authority granted) (AuthorityKept granted)
        (SecurityNotificationService.notifyAsync none userId "API key revoked") :=
      .notifyAsync _ _ _
    refine Program.wp_mono (notifies call _) ?_
    intro outcome after notified
    refine ⟨((reached.trans _ _ _ since).trans _ _ _ stored).trans _ _ _ notified, ?_⟩
    intro _
    obtain ⟨later, laterMember, persistsMore⟩ := notified.keys row member
    exact ⟨later, laterMember, (persistsMore.id.trans rowSame).trans same,
      persistsMore.revoked revoked⟩
  · intro current later exception now since waits _
    exact ⟨(reached.trans _ _ _ since).trans _ _ _ waits, by rintro ⟨⟩⟩

namespace AdminRoleService

theorem ensureTargetsAsync_kept (userId roleId : Guid) :
    Keeps (.authority granted) (AuthorityKept granted) (ensureTargetsAsync userId roleId) := by
  apply Keeps.bind (.query _)
  intro found
  apply Keeps.ite
  · apply Keeps.bind (.throw _)
    intro _
    apply Keeps.bind (.query _)
    intro _
    exact .ite (.throw _) (.pure _)
  · apply Keeps.bind (.query _)
    intro _
    exact .ite (.throw _) (.pure _)

theorem grantAsync_kept {userId roleId : Guid} (allowed : (userId, roleId) ∈ granted) :
    Keeps (.authority granted) (AuthorityKept granted) (grantAsync userId roleId) := by
  apply Keeps.bind (ensureTargetsAsync_kept userId roleId)
  intro _
  apply Keeps.bind (.query _)
  intro assigned
  apply Keeps.ite (.pure _)
  refine .saveChanges ?_
  intro call start current input db relied saved admitted
  obtain ⟨-, rfl⟩ := Db.insertUserRole_eq_ok.mp saved
  have kept : AuthorityKept granted current (current.advance call input
      ({ current.store with
          db := { current.store.db with
            userRoles := current.store.db.userRoles ++
              [{ userId, roleId, createdAt := input.now, updatedAt := input.now }] } }, [])) := by
    refine authorityKept_of_roles admitted ?_
    intro row member
    rcases List.mem_append.mp member with old | new
    · exact .inl old
    · rw [List.mem_singleton.mp new]
      exact .inr allowed
  exact ⟨kept, relied.1.trans _ _ _ kept⟩

/-- A role that was taken away is not held, unless it is granted again. -/
theorem revokeAsync_revokes {userId roleId : Guid} :
    (revokeAsync userId roleId).wp (.authority granted) call
      (fun outcome after => AuthorityKept granted start after ∧
        (outcome = .ok () → (userId, roleId) ∉ granted →
          ¬ HoldsRole granted after.store.db userId roleId))
      start := by
  have calm : Calm (.authority granted) call (AuthorityKept granted) := inferInstance
  simp only [revokeAsync, Program.wp_bind]
  refine Action.calm_queryOrThrow calm ?_
  intro seen see
  cases found : Action.singleOrDefault (seen.store.db.userRoles.filter (assigns userId roleId)) with
  | error exception => exact ⟨see, by rintro ⟨⟩⟩
  | ok candidate =>
  rw [Program.andThen_ok, Program.wp_bind, Action.wp_orThrow]
  cases candidate with
  | none => exact ⟨see, by rintro ⟨⟩⟩
  | some assignment =>
  have matched := (Action.mem_of_singleOrDefault found).2
  simp only [assigns, Bool.and_eq_true, decide_eq_true_eq] at matched
  dsimp only
  rw [Program.andThen_ok]
  refine Action.wp_saveChanges calm ?_ ?_
  · intro current input db since saved admitted
    unfold Db.deleteUserRole at saved
    split at saved
    case isFalse => cases saved
    case isTrue =>
    cases saved
    have kept : AuthorityKept granted current (current.advance call input
        ({ current.store with
            db := { current.store.db with
              userRoles := Table.deleteWhere (fun other => other.userId = assignment.userId &&
                other.roleId = assignment.roleId) current.store.db.userRoles } }, [])) := by
      refine authorityKept_of_roles admitted ?_
      intro row member
      exact .inl (Table.mem_deleteWhere.mp member).1
    refine ⟨kept, (see.trans _ _ _ since).trans _ _ _ kept, ?_⟩
    rintro - notGranted (inGrants | ⟨row, member, isAssigned⟩)
    · exact notGranted inGrants
    · have spared := (Table.mem_deleteWhere.mp member).2
      simp only [assigns, Bool.and_eq_true, decide_eq_true_eq] at isAssigned
      simp [isAssigned, matched] at spared
  · intro current later exception now since waits _
    exact ⟨(see.trans _ _ _ since).trans _ _ _ waits, by rintro ⟨⟩⟩

end AdminRoleService

/-- A key that may be used at an instant after this state. -/
structure ApiKey.Usable (key : ApiKey) (now : Instant) : Prop where
  unrevoked : key.revokedAt = none
  unexpired : ∀ expiresAt, key.expiresAt = some expiresAt → now < expiresAt

/-- The principal is that of a key which has the permission, from a state on. -/
structure AuthorizedBy (granted : List (Guid × Guid)) (start : State) (permission : String)
    (principal : ClaimsPrincipal) (key : ApiKey) : Prop where
  principal : ∃ roles, principal = ApiKeyAuthenticationHandler.principal key roles
  inScope : permission ∈ key.scopes
  held : MayHold granted start.store.db key.userId permission
  usable : ∀ earlier ∈ start.store.db.apiKeys, earlier.id = key.id →
    earlier.scopes = key.scopes ∧ earlier.Usable start.last.now

namespace ApiKeyAuthenticationHandler

/-- A key that was found alive was usable whenever it was there before. -/
theorem usable_of_alive {seen : State} {key : ApiKey} {now : Instant}
    (kept : AuthorityKept granted start seen)
    (unique : Table.Keyed ApiKey.id start.store.db.apiKeys)
    (member : key ∈ seen.store.db.apiKeys) (begun : start.last.now ≤ now)
    (alive : ¬ IsDead now key) :
    ∀ earlier ∈ start.store.db.apiKeys, earlier.id = key.id →
      earlier.scopes = key.scopes ∧ earlier.Usable start.last.now := by
  intro earlier earlierMember same
  obtain ⟨later, laterMember, persists⟩ := kept.keys earlier earlierMember
  obtain rfl := (kept.keyed unique).eq_of_key laterMember member (persists.id.trans same)
  unfold IsDead at alive
  rw [not_or] at alive
  refine ⟨persists.scopes.symm, ?_, ?_⟩
  · by_contra revoked
    exact alive.1 (persists.revoked (Option.isSome_iff_ne_none.mpr revoked))
  · intro expiresAt expires
    by_contra early
    refine alive.2 ⟨expiresAt, persists.expiresAt.trans expires, ?_⟩
    exact Int.le_trans (Int.not_lt.mp early) begun

/-- What the handler answers with, if the key is accepted. -/
def AcceptsKey (granted : List (Guid × Guid)) (start : State)
    (outcome : Except AppException AuthenticateResult) (after : State) : Prop :=
  ∀ principal, outcome = .ok (.success principal) → ∃ key ∈ after.store.db.apiKeys, ∃ roles,
    principal = ApiKeyAuthenticationHandler.principal key roles ∧
      (∀ permission, RolePermissionMap.grants roles permission = true →
        MayHold granted start.store.db key.userId permission) ∧
      ∀ earlier ∈ start.store.db.apiKeys, earlier.id = key.id →
        earlier.scopes = key.scopes ∧ earlier.Usable start.last.now

theorem handleAuthenticateAsync_accepts {request : HttpRequest}
    (unique : Table.Keyed ApiKey.id start.store.db.apiKeys) :
    (handleAuthenticateAsync services request).wp (.authority granted) call
      (fun outcome after => AuthorityKept granted start after ∧
        AcceptsKey granted start outcome after)
      start := by
  have calm : Calm (.authority granted) call (AuthorityKept granted) := inferInstance
  have refuses : ∀ {message : String} {state : State},
      AcceptsKey granted start (.ok (.fail message)) state :=
    fun _ impossible => nomatch impossible
  unfold handleAuthenticateAsync
  split
  case h_1 => exact ⟨.refl start, fun _ impossible => nomatch impossible⟩
  case h_2 presented _ =>
  split
  case h_2 => exact ⟨.refl start, refuses⟩
  case h_1 scheme keyPrefix secret _ =>
  rw [Program.wp_bind]
  refine Action.calm_utcNow calm ?_
  intro read reading
  rw [Program.andThen_ok, Program.wp_bind]
  refine Action.calm_queryOrThrow calm ?_
  intro seen see
  have reached := reading.trans _ _ _ see
  cases found : findKey keyPrefix seen.store.db with
  | error exception => exact ⟨reached, fun _ impossible => nomatch impossible⟩
  | ok candidate =>
  rw [Program.andThen_ok]
  cases candidate with
  | none => exact ⟨reached, refuses⟩
  | some key =>
  have member := (Action.mem_of_singleOrDefault found).1
  dsimp only
  split
  case isTrue => exact ⟨reached, refuses⟩
  case isFalse alive =>
  split
  case isTrue => exact ⟨reached, refuses⟩
  case isFalse =>
  rw [Program.wp_bind]
  refine Action.wp_execute calm ?_
  intro current input since admitted
  have persists :
      ∀ stored : ApiKey, stored.Persists { stored with lastUsedAt := some read.last.now } :=
    fun stored => ⟨rfl, rfl, rfl, rfl, fun revoked => revoked⟩
  have kept : AuthorityKept granted current (current.advance call input
      ({ current.store with
          db := { current.store.db with
            apiKeys := Table.updateWhere (·.id = key.id)
              ({ · with lastUsedAt := some read.last.now })
              current.store.db.apiKeys } }, [])) := authorityKept_of_keys admitted persists
  refine ⟨kept, ?_⟩
  rw [Program.andThen_ok, Program.wp_bind]
  refine Action.calm_query calm ?_
  intro later wait
  rw [Program.andThen_ok]
  have sinceSeen := (since.trans _ _ _ kept).trans _ _ _ wait
  refine ⟨reached.trans _ _ _ sinceSeen, ?_⟩
  rintro _ ⟨⟩
  obtain ⟨stored, storedMember, same⟩ := sinceSeen.keys key member
  refine ⟨stored, storedMember, later.store.db.roleNames key.userId, ?_, ?_, ?_⟩
  · simp only [ApiKeyAuthenticationHandler.principal, same.id, same.userId, same.scopes]
  · intro permission granting
    rw [same.userId]
    unfold RolePermissionMap.grants at granting
    obtain ⟨name, named, carries⟩ := List.any_eq_true.mp granting
    exact (reached.trans _ _ _ sinceSeen).mayHold
      (mayHold_of_roleNames named (List.contains_iff_mem.mp carries))
  · intro earlier earlierMember sameId
    rw [same.id] at sameId
    rw [same.scopes]
    exact usable_of_alive reached unique member reading.clock alive earlier earlierMember sameId

theorem authorizeAsync_authorized {fallback : String → Option AuthorizationPolicy}
    {request : HttpRequest}
    {permission : String} (unique : Table.Keyed ApiKey.id start.store.db.apiKeys) :
    (authorizeAsync services fallback request permission).wp (.authority granted) call
      (fun outcome after => AuthorityKept granted start after ∧
        ∀ principal, outcome = .ok (some principal) → ∃ key ∈ after.store.db.apiKeys,
          AuthorizedBy granted start permission principal key) start := by
  refine Program.wp_bind_of (handleAuthenticateAsync_accepts unique) ?_ ?_
  case refine_2 => exact fun _ _ failed => ⟨failed.1, fun _ impossible => nomatch impossible⟩
  rintro result after ⟨kept, accepts⟩
  rw [PermissionPolicyProvider.getPolicyAsync_policy]
  split
  case h_1 => exact ⟨kept, fun _ impossible => nomatch impossible⟩
  case h_2 policy decided =>
  refine ⟨kept, ?_⟩
  intro principal returned
  split at decided
  case isFalse => cases decided
  case isTrue =>
  cases decided
  cases result with
  | noResult | fail message => cases returned
  | success accepted =>
      have decision := Except.ok.inj returned
      dsimp only at decision
      split at decision
      case isFalse => cases decision
      case isTrue satisfied =>
      cases decision
      obtain ⟨key, member, roles, rfl, holds, usable⟩ := accepts principal rfl
      simp only [List.all_cons, List.all_nil, Bool.and_true] at satisfied
      obtain ⟨inScope, granting⟩ := handleRequirementAsync_principal.mp satisfied
      exact ⟨key, member, ⟨roles, rfl⟩, inScope, holds permission granting, usable⟩

end ApiKeyAuthenticationHandler

end Operations

/-! ### Every interleaving -/

abbrev AuthorityPool := Pool Input World Event AppException AuthorityResponse

/-- Operations that have not begun. -/
def operatingAuthority (services : Services) (fallback : String → Option AuthorizationPolicy)
    (operations : List AuthorityOperation) (start : State) : AuthorityPool where
  shared := start
  calls := operations.map (·.program services fallback)

/-- What a call that begins in one state has done by another. -/
def AuthorityOperation.Bounded (granted : List (Guid × Guid)) (start : State)
    (outcome : Except AppException AuthorityResponse) (after : State) : AuthorityOperation → Prop
  | createKey _ userId _ => ∀ response, outcome = .ok (.keyCreated response) →
      ∀ scope ∈ response.scopes, MayHold granted start.store.db userId scope
  | revokeKey _ keyId => outcome = .ok .keyRevoked →
      ∃ key ∈ after.store.db.apiKeys, key.id = keyId ∧ key.revokedAt.isSome = true
  | grantRole _ _ => True
  | revokeRole userId roleId => outcome = .ok .roleRevoked → (userId, roleId) ∉ granted →
      ¬ HoldsRole granted after.store.db userId roleId
  | authorize _ permission => ∀ principal, outcome = .ok (.authorized principal) →
      ∃ key ∈ after.store.db.apiKeys, AuthorizedBy granted start permission principal key

section

variable {services : Services} {fallback : String → Option AuthorizationPolicy} {start : State}
variable {operations : List AuthorityOperation} {granted : List (Guid × Guid)}

theorem AuthorityOperation.Bounded.later {op : AuthorityOperation}
    {outcome : Except AppException AuthorityResponse} {before after : State}
    (bounded : op.Bounded granted start outcome before)
    (kept : AuthorityKept granted before after) :
    op.Bounded granted start outcome after := by
  cases op with
  | createKey rounds userId request => exact bounded
  | revokeKey userId keyId =>
      intro ended
      obtain ⟨key, member, same, revoked⟩ := bounded ended
      obtain ⟨later, laterMember, persists⟩ := kept.keys key member
      exact ⟨later, laterMember, persists.id.trans same, persists.revoked revoked⟩
  | grantRole userId roleId => trivial
  | revokeRole userId roleId =>
      intro ended notGranted holds
      exact bounded ended notGranted (kept.assigned userId roleId holds)
  | authorize request permission =>
      intro principal ended
      obtain ⟨key, member, authorized⟩ := bounded principal ended
      obtain ⟨later, laterMember, persists⟩ := kept.keys key member
      obtain ⟨roles, same⟩ := authorized.principal
      refine ⟨later, laterMember, ⟨roles, ?_⟩, ?_, ?_, ?_⟩
      · rw [same]
        simp only [ApiKeyAuthenticationHandler.principal, persists.id, persists.userId,
          persists.scopes]
      · exact persists.scopes ▸ authorized.inScope
      · exact persists.userId ▸ authorized.held
      · rw [persists.id, persists.scopes]
        exact authorized.usable

/-- What is asked of an operation that begins in this state. -/
theorem AuthorityOperation.wp_bounded {op : AuthorityOperation} {call : ℕ}
    (unique : Table.Keyed ApiKey.id start.store.db.apiKeys)
    (allowed : ∀ userId roleId, op = .grantRole userId roleId → (userId, roleId) ∈ granted) :
    (op.program services fallback).wp (.authority granted) call
      (fun outcome after => op.Bounded granted start outcome after) start := by
  cases op with
  | createKey rounds userId request =>
      refine Program.wp_bind_of ApiKeyService.createAsync_bounded ?_ ?_
      · rintro response after ⟨-, carried⟩
        rintro _ ⟨⟩
        exact carried response rfl
      · exact fun _ _ _ _ impossible => nomatch impossible
  | revokeKey userId keyId =>
      refine Program.wp_bind_of ApiKeyService.revokeAsync_revokes ?_ ?_
      · exact fun _ after revokes _ => revokes.2 rfl
      · exact fun _ _ _ impossible => nomatch impossible
  | grantRole userId roleId =>
      refine Program.wp_bind_of
        (AdminRoleService.grantAsync_kept (allowed userId roleId rfl) call start) ?_ ?_
      · exact fun _ _ _ => trivial
      · exact fun _ _ _ => trivial
  | revokeRole userId roleId =>
      refine Program.wp_bind_of AdminRoleService.revokeAsync_revokes ?_ ?_
      · exact fun _ after revokes _ => revokes.2 rfl
      · exact fun _ _ _ impossible => nomatch impossible
  | authorize request permission =>
      refine Program.wp_bind_of
        (ApiKeyAuthenticationHandler.authorizeAsync_authorized unique) ?_ ?_
      · rintro decision after ⟨-, authorizes⟩
        cases decision with
        | none => exact fun _ impossible => nomatch impossible
        | some principal =>
            rintro _ ⟨⟩
            exact authorizes principal rfl
      · exact fun _ _ _ _ impossible => nomatch impossible

theorem grants_of_mem {call : ℕ} {userId roleId : Guid}
    (known : operations[call]? = some (.grantRole userId roleId)) :
    (userId, roleId) ∈ grants operations :=
  List.mem_filterMap.mpr ⟨_, List.mem_of_getElem? known, rfl⟩

theorem operatingAuthority_verified (unique : Table.Keyed ApiKey.id start.store.db.apiKeys) :
    (operatingAuthority services fallback operations start).Verified Onward
      (AuthorityKept (grants operations))
      (fun call outcome after => ∀ op, operations[call]? = some op →
        op.Bounded (grants operations) start outcome after) := by
  refine Pool.verified_of_wp AuthorityKept.refl ?_
  intro call program present
  simp only [operatingAuthority, List.getElem?_map, Option.map_eq_some_iff] at present
  obtain ⟨op, known, rfl⟩ := present
  refine Program.wp_mono (op.wp_bounded unique ?_) ?_
  · rintro userId roleId rfl
    exact grants_of_mem known
  · intro outcome after bounded other found
    obtain rfl := Option.some.inj (known.symm.trans found)
    exact bounded

/-- At every moment of every interleaving: a call that begins after it does what its operation may
do from there, and a call that has ended before it has done what it may. -/
theorem authority_bounded (unique : Table.Keyed ApiKey.id start.store.db.apiKeys)
    {early late : List (ℕ × Input)}
    (onward : (operatingAuthority services fallback operations start).Admitted Onward
      (early ++ late)) :
    let reached := (operatingAuthority services fallback operations start).run early
    let final := reached.run late
    ∀ call op, operations[call]? = some op →
      (∀ outcome, reached.outcome? call = some outcome →
        op.Bounded (grants operations) start outcome reached.shared) ∧
      ∀ outcome, reached.calls[call]? = some (op.program services fallback) →
        final.outcome? call = some outcome →
          op.Bounded (grants operations) reached.shared outcome final.shared := by
  intro reached final call op known
  obtain ⟨earlyOnward, lateOnward⟩ := Pool.admitted_append.mp onward
  obtain ⟨kept, verified⟩ := Pool.run_wp AuthorityKept.refl AuthorityKept.trans
    (operatingAuthority_verified unique) earlyOnward
  constructor
  · intro outcome ended
    obtain ⟨earlier, since, -, bounded⟩ := verified.outcome ended
    exact (bounded op known).later since
  · intro outcome waiting ended
    have fromHere : (op.program services fallback).wp (.authority (grants operations)) call
        (fun outcome after => op.Bounded (grants operations) reached.shared outcome after)
          reached.shared := by
      refine op.wp_bounded (kept.keyed unique) ?_
      rintro userId roleId rfl
      exact grants_of_mem known
    obtain ⟨-, stillVerified⟩ := Pool.run_wp AuthorityKept.refl AuthorityKept.trans
      (verified.update AuthorityKept.refl waiting fromHere) lateOnward
    obtain ⟨earlier, since, -, bounded⟩ := stillVerified.outcome ended
    rw [Function.update_self] at bounded
    exact AuthorityOperation.Bounded.later bounded since

/-- What revocations that have ended at one moment mean for the calls that begin after it. -/
structure RevocationsHold (operations : List AuthorityOperation) (reached final : AuthorityPool)
    (permission : String) (principal : ClaimsPrincipal) (key : ApiKey) : Prop where
  authorized : AuthorizedBy (grants operations) reached.shared permission principal key
  keys : ∀ call userId keyId, operations[call]? = some (.revokeKey userId keyId) →
    reached.outcome? call = some (.ok .keyRevoked) → key.id ≠ keyId
  roles : ∀ call roleId, operations[call]? = some (.revokeRole key.userId roleId) →
    reached.outcome? call = some (.ok .roleRevoked) → (key.userId, roleId) ∉ grants operations →
    ∃ role ∈ final.shared.store.db.roles, role.id ≠ roleId ∧
      HoldsRole (grants operations) reached.shared.store.db key.userId role.id ∧
      permission ∈ RolePermissionMap.permissionsFor role.name

/-- In every interleaving, at every moment of it: no request that begins later is authorized by a
key that was revoked, by a key that has expired, beyond the scopes of the key, or by a role that was
taken from its owner and is not granted again; and no key that is created later has more than such
roles carry. -/
theorem authority_final (services : Services) (fallback : String → Option AuthorizationPolicy)
    (operations : List AuthorityOperation) (unique : Table.Keyed ApiKey.id start.store.db.apiKeys)
    {early late : List (ℕ × Input)}
    (onward : (operatingAuthority services fallback operations start).Admitted Onward
      (early ++ late)) :
    let reached := (operatingAuthority services fallback operations start).run early
    let final := reached.run late
    (∀ call request permission principal, operations[call]? = some (.authorize request permission) →
      reached.calls[call]? = some
        (AuthorityOperation.program services fallback (.authorize request permission)) →
      final.outcome? call = some (.ok (.authorized principal)) →
        ∃ key ∈ final.shared.store.db.apiKeys,
          RevocationsHold operations reached final permission principal key) ∧
    ∀ call rounds userId request response,
      operations[call]? = some (.createKey rounds userId request) →
      reached.calls[call]? = some
        (AuthorityOperation.program services fallback (.createKey rounds userId request)) →
      final.outcome? call = some (.ok (.keyCreated response)) →
        ∀ scope ∈ response.scopes,
          MayHold (grants operations) reached.shared.store.db userId scope := by
  intro reached final
  have bounded := @authority_bounded services fallback start operations unique early late onward
  obtain ⟨earlyOnward, lateOnward⟩ := Pool.admitted_append.mp onward
  obtain ⟨kept, verified⟩ := Pool.run_wp AuthorityKept.refl AuthorityKept.trans
    (operatingAuthority_verified unique) earlyOnward
  obtain ⟨keptLate, -⟩ := Pool.run_wp AuthorityKept.refl AuthorityKept.trans verified lateOnward
  constructor
  · intro call request permission principal known waiting ended
    obtain ⟨key, member, authorized⟩ := (bounded call _ known).2 _ waiting ended principal rfl
    refine ⟨key, member, authorized, ?_, ?_⟩
    · intro other userId keyId otherKnown revokes same
      obtain ⟨earlier, earlierMember, sameId, revoked⟩ :=
        (bounded other _ otherKnown).1 _ revokes rfl
      have usable := (authorized.usable earlier earlierMember (sameId.trans same.symm)).2
      rw [usable.unrevoked] at revoked
      cases revoked
    · intro other roleId otherKnown revokes notGranted
      have absent := (bounded other _ otherKnown).1 _ revokes rfl notGranted
      obtain ⟨role, roleMember, holds, carries⟩ := authorized.held
      refine ⟨role, keptLate.roles ▸ roleMember, ?_, holds, carries⟩
      rintro rfl
      exact absent holds
  · intro call rounds userId request response known waiting ended
    exact (bounded call _ known).2 _ waiting ended response rfl

end

/-- An administrator with a key to read users, who is also an ordinary user. -/
def keyedAdmin : World where
  db :=
    { users := [{ id := 2, email := "ada@example.test", securityStamp := 1 }]
      roles := [{ id := 7, name := "Admin" }, { id := 8, name := "User" }]
      userRoles := [{ userId := 2, roleId := 7 }, { userId := 2, roleId := 8 }]
      apiKeys :=
        [⟨5, 2, "desk", "abcdefghijkl", "$secret", ["users:read:any"], some 100, none,
          none, 0, 0⟩] }
  supply := 12

/-- The key is used, and after it was revoked again. -/
def keyOperations : List AuthorityOperation :=
  let used := .authorize (.authorizedBy "ApiKey ak_abcdefghijkl_secret") "users:read:any"
  [.revokeRole 2 8, used, .revokeKey 2 5, used]

def usedKey : AuthorityPool :=
  operatingAuthority .sample (fun _ => none) keyOperations (Shared.initial keyedAdmin ⟨10, false⟩)

/-- Every call takes all its steps before the next. -/
def eachInTurn (calls : List ℕ) : List (ℕ × Input) :=
  calls.flatMap fun call => List.replicate 6 (call, ⟨10, false⟩)

/-- Whether this call was authorized, if it has ended. -/
def authorized? (pool : AuthorityPool) (call : ℕ) : Option Bool :=
  match pool.outcome? call with
  | some (.ok (.authorized _)) => some true
  | some _ => some false
  | none => none

theorem onward_sample :
    usedKey.admitted? Onward (eachInTurn [0] ++ eachInTurn [1, 2, 3]) = true := by
  decide +kernel

theorem authority_final_sample :
    let reached := usedKey.run (eachInTurn [0])
    let final := reached.run (eachInTurn [1, 2, 3])
    authorized? final 1 = some true ∧ authorized? final 3 = some false ∧
      ∀ principal, final.outcome? 1 = some (.ok (.authorized principal)) →
        ∃ key ∈ final.shared.store.db.apiKeys,
          RevocationsHold keyOperations reached final "users:read:any" principal key := by
  refine ⟨by decide +kernel, by decide +kernel, ?_⟩
  have waiting : (usedKey.run (eachInTurn [0])).calls[1]? = usedKey.calls[1]? :=
    Pool.run_calls_of_absent (by decide)
  delta usedKey at waiting ⊢
  intro principal returned
  exact (authority_final .sample (fun _ => none) keyOperations (by decide)
    (Pool.admitted_of_admitted? onward_sample)).1 1 _ _ principal rfl waiting returned

end AuthStartpack
