import AuthStartpack.Services.Audit.AuditQueryService
import AuthStartpack.Services.Users.AdminUserList
import Mathlib.Data.List.Lex

/-!
Owns when the pages of the two administrative lists are complete. The rows of a
page are ordered by one column alone, so rows that tie in it may be repeated or
missed where a boundary between two pages lies between them. The sort fields of
the users are also matched by letter case, which their validator does not do, and
each page of the users reads the clock by itself.
-/

namespace AuthStartpack

open Table PagedQueryExtensions

/-! ### Users -/

namespace AdminUserService

variable (iLike : String → String → Bool) (citext : SortOrder String)

/-- The texts of a query that the database is asked about. -/
def texts (query : AdminUserListQuery) : List String := query.search.toList ++ query.role.toList

/-- The answers to the requests for the pages of a query, each at an instant of its own. -/
def pageAnswers (db : Db) (query : AdminUserListQuery) (clock : ℕ → Instant)
    (arrangers : ℕ → Arranger User) (number : ℕ) :
    Except PageFailure (PagedResponse AdminUserResponse) := do
  let page ← pageNumber number
  checkTexts (texts query)
  listAsync iLike citext (arrangers number) db (clock number) { query with page }

/-- The sort, as far as there is one, names a field as the service spells it. -/
def Spelled (sort : Option String) : Prop :=
  isNullOrWhiteSpace sort = true ∨
    (splitInTwo ':' (sort.getD "")).1 ∈ AdminUserListQueryValidator.sortableFields

instance (sort : Option String) : Decidable (Spelled sort) := inferInstanceAs (Decidable (_ ∨ _))

/-- A user that comes on a page or before it matches at its clock reading just if it does at that of
the first page. -/
def Steady (order : SortOrder User) (db : Db) (query : AdminUserListQuery)
    (clock : ℕ → Instant) : Prop :=
  let rows := filtered iLike db query (clock 1)
  ∀ number < lastPage rows.length query.pageSize.toInt.toNat, ∀ user ∈ db.users,
    order.before rows user < (number + 1) * query.pageSize.toInt.toNat →
      matches? iLike db query (clock (number + 1)) user = matches? iLike db query (clock 1) user

instance (order : SortOrder User) (db : Db) (query : AdminUserListQuery) (clock : ℕ → Instant) :
    Decidable (Steady iLike order db query clock) := by
  unfold Steady
  infer_instance

variable {iLike citext} {db : Db} {query : AdminUserListQuery} {clock : ℕ → Instant}
  {order : SortOrder User}

theorem steady_iff : Steady iLike order db query clock ↔
    ∀ number < lastPage (filtered iLike db query (clock 1)).length query.pageSize.toInt.toNat,
      order.AgreesUpTo (filtered iLike db query (clock 1))
        (filtered iLike db query (clock (number + 1)))
        ((number + 1) * query.pageSize.toInt.toNat) := by
  unfold Steady SortOrder.AgreesUpTo filtered
  simp only [List.mem_filter]
  constructor
  · intro steady number below user early
    exact and_congr_right fun member => by rw [steady number below user member early]
  · intro agrees number below user member early
    have same := agrees number below user early
    simpa [member] using same

/-- While the clock goes on, users only come out of a lockout. -/
theorem filtered_drifts (later : ∀ number, clock 1 ≤ clock (number + 1)) :
    Drifts (filtered iLike db query (clock 1)) fun number =>
      filtered iLike db query (clock (number + 1)) := by
  have narrows : ∀ {now then_ : Instant},
      (∀ user, matches? iLike db query now user = true →
        matches? iLike db query then_ user = true) →
        filtered iLike db query now ⊆ filtered iLike db query then_ := by
    intro now then_ matched user member
    obtain ⟨stored, holds⟩ := List.mem_filter.mp member
    exact List.mem_filter.mpr ⟨stored, matched user holds⟩
  cases locked : query.locked with
  | none =>
      refine .inl fun number => narrows fun user holds => ?_
      simpa only [matches?, locked, Option.all_none] using holds
  | some asked =>
    cases asked with
    | true =>
        refine .inl fun number => narrows fun user holds => ?_
        simp only [matches?, locked, Option.all_some, if_true, Bool.and_eq_true] at holds ⊢
        refine ⟨holds.1, ?_⟩
        obtain ⟨stop, ends, future⟩ := (Option.any_eq_true _ _).mp holds.2
        refine (Option.any_eq_true _ _).mpr ⟨stop, ends, ?_⟩
        have goesOn := later number
        simp only [decide_eq_true_eq] at future ⊢
        exact lt_of_le_of_lt goesOn future
    | false =>
        refine .inr fun number => narrows fun user holds => ?_
        simp only [matches?, locked, Option.all_some, Bool.false_eq_true, if_false,
          Bool.and_eq_true] at holds ⊢
        refine ⟨holds.1, (Option.all_eq_true _ _).mpr ?_⟩
        intro stop ends
        have past := (Option.all_eq_true _ _).mp holds.2 stop ends
        have goesOn := later number
        simp only [decide_eq_true_eq] at past ⊢
        exact past.trans goesOn

theorem exists_order_iff {sort : Option String} :
    (∃ order, applySort sort (sorts citext) (.ofKey User.createdAt) = .ok order) ↔ Spelled sort :=
  exists_applySort_iff

theorem pageAnswers_eq {arrangers : ℕ → Arranger User}
    (plain : (texts query).all storable = true)
    (resolved : applySort query.sort (sorts citext) (.ofKey User.createdAt) = .ok order) :
    pageAnswers iLike citext db query clock arrangers =
      answers order query.toPagedQuery (toListResponse db)
        (fun number => filtered iLike db query (clock number)) arrangers := by
  funext number
  unfold pageAnswers answers listAsync checkTexts
  refine congrArg _ (funext fun page => ?_)
  rw [if_pos plain]
  change (applySort query.sort (sorts citext) (.ofKey User.createdAt) >>= fun order =>
    toPagedResponseAsync (arrangers number) order _ (toListResponse db)
      (filtered iLike db query (clock number))) = _
  rw [resolved]
  rfl

theorem not_lists_of_unresolved {failure : PageFailure} {items : List AdminUserResponse}
    {arrangers : ℕ → Arranger User} (plain : (texts query).all storable = true)
    (unresolved : applySort query.sort (sorts citext) (.ofKey User.createdAt) = .error failure) :
    ¬ Lists (pageAnswers iLike citext db query clock arrangers) items := by
  have first : pageAnswers iLike citext db query clock arrangers 1 = .error failure := by
    unfold pageAnswers listAsync checkTexts
    rw [if_pos plain]
    change (applySort query.sort (sorts citext) (.ofKey User.createdAt) >>= _) = _
    rw [unresolved]
    rfl
  exact not_lists_of_error first

/-- The response carries the id of the row. -/
theorem responses_nodup (keys : (db.users.map User.id).Nodup) :
    (db.users.map (toListResponse db)).Nodup := by
  apply List.Nodup.of_map AdminUserResponse.id
  rw [List.map_map]
  exact keys

theorem lists_iff (keys : (db.users.map User.id).Nodup)
    (accepted : AdminUserListQueryValidator.validate query = [])
    (later : ∀ number, clock 1 ≤ clock (number + 1)) :
    (∀ arrangers, Lists (pageAnswers iLike citext db query clock arrangers)
        ((filtered iLike db query (clock 1)).map (toListResponse db))) ↔
      (texts query).all storable = true ∧ Spelled query.sort ∧
        PagesFit (filtered iLike db query (clock 1)).length query.pageSize.toInt.toNat ∧
          ∀ order, applySort query.sort (sorts citext) (.ofKey User.createdAt) = .ok order →
            order.Separated (filtered iLike db query (clock 1)) query.pageSize.toInt.toNat ∧
              Steady iLike order db query clock := by
  have paging : PaginationRules.applyPagingRules query.toPagedQuery = [] := by
    simp only [AdminUserListQueryValidator.validate, List.append_eq_nil_iff] at accepted
    exact accepted.1.1.1
  by_cases plain : (texts query).all storable = true
  case neg =>
    refine ⟨fun complete => ?_, fun condition => absurd condition.1 plain⟩
    refine absurd (complete fun _ => .sorting User) (@not_lists_of_error _ _ .database _ ?_)
    unfold pageAnswers checkTexts
    rw [if_neg plain]
    rfl
  case pos =>
  cases resolved : applySort query.sort (sorts citext) (.ofKey User.createdAt) with
  | error failure =>
      have unspelled : ¬ Spelled query.sort := by
        rw [← @exists_order_iff citext, resolved]
        rintro ⟨order, impossible⟩
        cases impossible
      refine ⟨fun complete => ?_, fun condition => absurd condition.2.1 unspelled⟩
      exact absurd (complete fun _ => .sorting User) (not_lists_of_unresolved plain resolved)
  | ok order =>
      have spelled : Spelled query.sort := exists_order_iff.mp ⟨order, resolved⟩
      simp only [pageAnswers_eq plain resolved, plain, spelled, true_and, Except.ok.injEq,
        forall_eq']
      rw [steady_iff]
      have rows : ∀ number, (filtered iLike db query (clock number)).Nodup := fun number =>
        (List.Nodup.of_map User.id keys).filter _
      exact lists_answers_iff paging (responses_nodup keys)
        (fun number => List.filter_sublist.subset) rows (filtered_drifts later)

end AdminUserService

/-! ### The audit trail -/

namespace AuditQueryService

/-- The answers to the requests for the pages of a query. -/
def pageAnswers (entries : List StoredAuditLogEntry) (query : AuditLogQuery)
    (arrangers : ℕ → Arranger StoredAuditLogEntry) (number : ℕ) :
    Except PageFailure (PagedResponse AuditLogEntryResponse) := do
  let page ← pageNumber number
  checkTexts query.correlationId.toList
  queryAsync (arrangers number) entries { query with page }

variable {entries : List StoredAuditLogEntry} {query : AuditLogQuery}

theorem pageAnswers_eq (plain : query.correlationId.toList.all storable = true)
    (arrangers : ℕ → Arranger StoredAuditLogEntry) :
    pageAnswers entries query arrangers =
      answers (sort query.sort) query.toPagedQuery toResponse (fun _ => filter entries query)
        arrangers := by
  funext number
  unfold pageAnswers answers checkTexts
  rw [if_pos plain]
  rfl

theorem lists_iff (keys : (entries.map (·.id)).Nodup)
    (accepted : AuditLogQueryValidator.validate query = []) :
    (∀ arrangers, Lists (pageAnswers entries query arrangers)
        ((filter entries query).map toResponse)) ↔
      query.correlationId.toList.all storable = true ∧
        PagesFit (filter entries query).length query.pageSize.toInt.toNat ∧
          (sort query.sort).Separated (filter entries query) query.pageSize.toInt.toNat := by
  have paging : PaginationRules.applyPagingRules query.toPagedQuery = [] := by
    simp only [AuditLogQueryValidator.validate, List.append_eq_nil_iff] at accepted
    exact accepted.1.1.1
  by_cases plain : query.correlationId.toList.all storable = true
  case neg =>
    refine ⟨fun complete => ?_, fun condition => absurd condition.1 plain⟩
    refine absurd (complete fun _ => .sorting _) (@not_lists_of_error _ _ .database _ ?_)
    unfold pageAnswers checkTexts
    rw [if_neg plain]
    rfl
  case pos =>
  have labels : (entries.map toResponse).Nodup := by
    apply List.Nodup.of_map AuditLogEntryResponse.id
    rw [List.map_map]
    exact keys
  have rows : (filter entries query).Nodup := (List.Nodup.of_map _ keys).filter _
  simp only [pageAnswers_eq plain, plain, true_and]
  have exactly := @lists_answers_iff _ _ (sort query.sort) query.toPagedQuery toResponse
    (fun _ => filter entries query) paging entries labels (fun _ => List.filter_sublist.subset)
    (fun _ => rows) (.inl fun _ => List.Subset.refl _)
  rw [exactly]
  -- every page is read from the same entries
  exact and_congr_right fun _ => and_iff_left fun _ _ _ _ => Iff.rfl

end AuditQueryService

/-! ### Both lists -/

/-- Two entries of the trail at one instant. -/
def simultaneousEntries : List StoredAuditLogEntry :=
  [{ id := 1, userId := some 7, eventType := .loginFailed, occurredAt := 10 },
    { id := 2, userId := some 7, eventType := .accountLocked, occurredAt := 10 }]

/-- Two users that were created at one instant. -/
def simultaneousUsers : Db :=
  { users :=
      [{ id := 1, email := "ada@example.test", securityStamp := 1, createdAt := 10 },
        { id := 2, email := "bob@example.test", securityStamp := 2, createdAt := 10 }] }

/-- The text order of characters, without regard to their case. -/
def foldedOrder : SortOrder String :=
  .ofKey fun text => text.toList.map fun character => character.toLower.toNat

end AuthStartpack
