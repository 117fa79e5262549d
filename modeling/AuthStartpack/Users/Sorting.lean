import AuthStartpack.Encoding.Casing
import AuthStartpack.Users.Paging

/-!
Owns what the sort parameter of a list means, and whether the two executors read
it as the validator does. The validator compares the names of the fields without
regard to case. So does the query of the audit trail, but not the list of users.
-/

namespace AuthStartpack

open Table PagedQueryExtensions

/-! ### The language of sorts -/

section Language

variable {α : Type}

/-- What may follow the name of a field. -/
def directions : List (String × (SortOrder α → SortOrder α)) :=
  [("", id), (":asc", id), (":desc", SortOrder.descending)]

/-- The order that a sort asks for: that of a field, named in any case, in its direction. -/
inductive Asks (fields : List (String × SortOrder α)) (defaultOrder : SortOrder α) :
    Option String → SortOrder α → Prop
  | blank {sort : Option String} : isNullOrWhiteSpace sort = true →
      Asks fields defaultOrder sort defaultOrder
  | named {name : String} {field : String × SortOrder α}
      {suffix : String × (SortOrder α → SortOrder α)} : field ∈ fields →
      ClaimsPrincipal.equalsIgnoreCase name field.1 = true → suffix ∈ directions →
      Asks fields defaultOrder (some (name ++ suffix.1)) (suffix.2 field.2)

/-- The sort asks for this order and no other. -/
def AsksOnly (fields : List (String × SortOrder α)) (defaultOrder : SortOrder α)
    (sort : Option String) (order : SortOrder α) : Prop :=
  ∀ other, Asks fields defaultOrder sort other ↔ other = order

/-- Names that differ by more than case, without colons and blanks. -/
structure Publishes (fields : List (String × SortOrder α)) : Prop where
  distinct : (fields.map fun field => field.1.toList.map Char.toUpper).Nodup
  shown : ∀ field ∈ fields, field.1.toList ≠ []
  free : ∀ field ∈ fields, ':' ∉ field.1.toList
  dark : ∀ field ∈ fields, ∀ character ∈ field.1.toList, isWhiteSpace character = false

end Language

/-! ### Letter case -/

section LetterCase

theorem isWhiteSpace_toUpper (character : Char) :
    isWhiteSpace character.toUpper = isWhiteSpace character := by
  apply toUpper_cases fun before after => isWhiteSpace after = isWhiteSpace before
  · intro character
    rfl
  · decide

theorem toUpper_eq_colon {character : Char} : character.toUpper = ':' ↔ character = ':' := by
  apply toUpper_cases fun before after => after = ':' ↔ before = ':'
  · intro character
    rfl
  · decide

variable {name field : String}

/-- A name that is equal but for case consists of the same characters but for case. -/
theorem exists_mem_of_equalsIgnoreCase (equal : ClaimsPrincipal.equalsIgnoreCase name field = true)
    {character : Char} (member : character ∈ name.toList) :
    ∃ other ∈ field.toList, other.toUpper = character.toUpper := by
  have folded : character.toUpper ∈ field.toList.map Char.toUpper := by
    rw [← of_decide_eq_true equal]
    exact List.mem_map_of_mem member
  exact List.mem_map.mp folded

theorem free_of_equalsIgnoreCase (equal : ClaimsPrincipal.equalsIgnoreCase name field = true)
    (free : ':' ∉ field.toList) : ':' ∉ name.toList := by
  intro member
  obtain ⟨other, inside, same⟩ := exists_mem_of_equalsIgnoreCase equal member
  have colon : other = ':' := toUpper_eq_colon.mp (same.trans (by decide))
  exact free (colon ▸ inside)

theorem dark_of_equalsIgnoreCase (equal : ClaimsPrincipal.equalsIgnoreCase name field = true)
    (dark : ∀ character ∈ field.toList, isWhiteSpace character = false) :
    ∀ character ∈ name.toList, isWhiteSpace character = false := by
  intro character member
  obtain ⟨other, inside, same⟩ := exists_mem_of_equalsIgnoreCase equal member
  rw [← isWhiteSpace_toUpper, ← same, isWhiteSpace_toUpper]
  exact dark other inside

theorem shown_of_equalsIgnoreCase (equal : ClaimsPrincipal.equalsIgnoreCase name field = true)
    (shown : field.toList ≠ []) : name.toList ≠ [] := by
  intro empty
  have folded : name.toList.map Char.toUpper = field.toList.map Char.toUpper :=
    of_decide_eq_true equal
  rw [empty, List.map_nil] at folded
  exact shown (List.map_eq_nil_iff.mp folded.symm)

end LetterCase

/-! ### Reading a sort -/

section Reading

variable {α : Type} {fields : List (String × SortOrder α)} {field : String × SortOrder α}
  {suffix : String × (SortOrder α → SortOrder α)} {name : String} {defaultOrder order : SortOrder α}
  {sort : Option String}

/-- The direction that follows a name, as the text after its colon. -/
theorem splitInTwo_suffix (free : ':' ∉ name.toList) (member : suffix ∈ directions) :
    (splitInTwo ':' (name ++ suffix.1) = (name, none) ∧ suffix = ("", id)) ∨
    (splitInTwo ':' (name ++ suffix.1) = (name, some "asc") ∧ suffix = (":asc", id)) ∨
    (splitInTwo ':' (name ++ suffix.1) = (name, some "desc") ∧
      suffix = (":desc", .descending)) := by
  simp only [directions, List.mem_cons, List.not_mem_nil, or_false] at member
  rcases member with rfl | rfl | rfl
  · left
    rw [String.append_empty]
    exact ⟨splitInTwo_of_free free, rfl⟩
  · right; left
    have read := splitInTwo_append free "asc"
    rw [String.append_assoc] at read
    exact ⟨read, rfl⟩
  · right; right
    have read := splitInTwo_append free "desc"
    rw [String.append_assoc] at read
    exact ⟨read, rfl⟩

theorem splitInTwo_suffix_fst (free : ':' ∉ name.toList) (member : suffix ∈ directions) :
    (splitInTwo ':' (name ++ suffix.1)).1 = name := by
  rcases splitInTwo_suffix free member with ⟨read, -⟩ | ⟨read, -⟩ | ⟨read, -⟩ <;> rw [read]

/-- Neither the name nor the direction can be read in two ways. -/
theorem append_suffix_inj {otherName : String} {other : String × (SortOrder α → SortOrder α)}
    (free : ':' ∉ name.toList) (otherFree : ':' ∉ otherName.toList) (member : suffix ∈ directions)
    (otherMember : other ∈ directions) (same : name ++ suffix.1 = otherName ++ other.1) :
    name = otherName ∧ suffix = other := by
  have parts := splitInTwo_suffix free member
  have otherParts := splitInTwo_suffix otherFree otherMember
  rw [same] at parts
  rcases parts with ⟨read, rfl⟩ | ⟨read, rfl⟩ | ⟨read, rfl⟩ <;>
    rcases otherParts with ⟨otherRead, rfl⟩ | ⟨otherRead, rfl⟩ | ⟨otherRead, rfl⟩ <;>
    rw [read] at otherRead <;> simp at otherRead <;> exact ⟨otherRead, rfl⟩

/-- What the validator accepts is blank, or a name in any case and a direction. -/
theorem of_isAllowed (accepted : PaginationRules.isAllowed sort (fields.map (·.1)) = true) :
    isNullOrWhiteSpace sort = true ∨
      ∃ name, ∃ field ∈ fields, ∃ suffix : String × (SortOrder α → SortOrder α),
        suffix ∈ directions ∧
        ClaimsPrincipal.equalsIgnoreCase name field.1 = true ∧ sort = some (name ++ suffix.1) := by
  by_cases blank : isNullOrWhiteSpace sort = true
  · exact .inl blank
  right
  rw [PaginationRules.isAllowed, Bool.or_eq_true, or_iff_right blank] at accepted
  obtain ⟨text, rfl, rules⟩ := (Option.any_eq_true _ _).mp accepted
  simp only [Bool.and_eq_true, decide_eq_true_eq, Bool.or_eq_true, List.contains_iff_mem] at rules
  obtain ⟨⟨named, few⟩, direction⟩ := rules
  obtain ⟨_, member, equal⟩ := List.any_eq_true.mp named
  obtain ⟨field, inside, rfl⟩ := List.mem_map.mp member
  have joined : text.toList = [':'].intercalate (text.toList.splitOn ':') :=
    (List.intercalate_splitOn ':').symm
  have filled := List.splitOn_ne_nil ':' text.toList
  unfold split at equal few direction
  generalize text.toList.splitOn ':' = parts at equal few direction joined filled
  cases parts with
  | nil => exact absurd rfl filled
  | cons first parts =>
    have equal' : ClaimsPrincipal.equalsIgnoreCase (String.ofList first) field.1 = true := equal
    cases parts with
    | nil =>
        refine ⟨String.ofList first, field, inside, ("", id), List.mem_cons_self, equal', ?_⟩
        apply congrArg some
        apply String.toList_injective
        simpa using joined
    | cons second parts =>
      cases parts with
      | cons third parts =>
          simp only [List.map_cons, List.length_cons] at few
          omega
      | nil =>
        have marked : text = String.ofList first ++ (":" ++ String.ofList second) := by
          apply String.toList_injective
          simpa using joined
        have named : String.ofList second ∈ ["asc", "desc"] := by
          rcases direction with single | named
          · simp at single
          · exact named
        simp only [List.mem_cons, List.not_mem_nil, or_false] at named
        rcases named with asc | desc
        · refine ⟨String.ofList first, field, inside,
            (":asc", id), by simp [directions], equal', ?_⟩
          rw [marked, asc]
          rfl
        · refine ⟨String.ofList first, field, inside, (":desc", .descending), by simp [directions],
            equal', ?_⟩
          rw [marked, desc]
          rfl

namespace Publishes

variable (publishes : Publishes fields)
include publishes

/-- Two fields of one name are one field. -/
theorem eq_of_equal {other : String × SortOrder α} (member : field ∈ fields)
    (otherMember : other ∈ fields)
    (equal : ClaimsPrincipal.equalsIgnoreCase name field.1 = true)
    (otherEqual : ClaimsPrincipal.equalsIgnoreCase name other.1 = true) : field = other := by
  have folded : name.toList.map Char.toUpper = field.1.toList.map Char.toUpper :=
    of_decide_eq_true equal
  have otherFolded : name.toList.map Char.toUpper = other.1.toList.map Char.toUpper :=
    of_decide_eq_true otherEqual
  exact List.inj_on_of_nodup_map publishes.distinct member otherMember
    (folded.symm.trans otherFolded)

theorem not_blank (member : field ∈ fields)
    (equal : ClaimsPrincipal.equalsIgnoreCase name field.1 = true) (rest : String) :
    ¬ isNullOrWhiteSpace (some (name ++ rest)) = true := by
  intro blank
  have shown := shown_of_equalsIgnoreCase equal (publishes.shown field member)
  obtain ⟨character, inside⟩ := List.exists_mem_of_ne_nil _ shown
  have white : isWhiteSpace character = true := by
    apply List.all_eq_true.mp blank
    rw [String.toList_append]
    exact List.mem_append_left _ inside
  have dark := dark_of_equalsIgnoreCase equal (publishes.dark field member) character inside
  rw [dark] at white
  cases white

theorem asksOnly_blank (blank : isNullOrWhiteSpace sort = true) :
    AsksOnly fields defaultOrder sort defaultOrder := by
  intro other
  constructor
  · intro asks
    cases asks with
    | blank => rfl
    | named member equal => exact absurd blank (publishes.not_blank member equal _)
  · rintro rfl
    exact .blank blank

theorem asksOnly_named (member : field ∈ fields)
    (equal : ClaimsPrincipal.equalsIgnoreCase name field.1 = true) (follows : suffix ∈ directions) :
    AsksOnly fields defaultOrder (some (name ++ suffix.1)) (suffix.2 field.2) := by
  intro other
  constructor
  · intro asks
    generalize text : some (name ++ suffix.1) = sort at asks
    cases asks with
    | blank isBlank =>
        rw [← text] at isBlank
        exact absurd isBlank (publishes.not_blank member equal _)
    | named otherMember otherEqual otherFollows =>
        have free := free_of_equalsIgnoreCase equal (publishes.free _ member)
        have otherFree := free_of_equalsIgnoreCase otherEqual (publishes.free _ otherMember)
        obtain ⟨rfl, rfl⟩ := append_suffix_inj free otherFree follows otherFollows
          (Option.some.inj text)
        rw [publishes.eq_of_equal member otherMember equal otherEqual]
  · rintro rfl
    exact .named member equal follows

end Publishes

end Reading

/-! ### The list of users -/

namespace AdminUserService

variable (citext : SortOrder String)

theorem publishes_sorts : Publishes (sorts citext) where
  distinct := by
    show (["email", "createdAt", "emailVerified"].map
      fun name => name.toList.map Char.toUpper).Nodup
    decide
  shown := by
    show ∀ field ∈ sorts citext, field.1.toList ≠ []
    simp [sorts]
  free := by
    simp [sorts]
  dark := by
    have names : ∀ name ∈ ["email", "createdAt", "emailVerified"],
        name.toList.all (isWhiteSpace · = false) = true := by decide
    intro field member
    exact List.all_iff_forall_prop.mp (names field.1 (List.mem_map_of_mem member))

/-- The list of users is in the one order that its sort asks for, where the fields mean these
orders and no field means the default one. -/
def SortsAsAsked (fields : List (String × SortOrder User)) (defaultOrder : SortOrder User)
    (sort : Option String) : Prop :=
  ∃ order, AsksOnly fields defaultOrder sort order ∧
    applySort sort (sorts citext) (.ofKey User.createdAt) = .ok order

variable {citext} {sort : Option String}

theorem sortsAsAsked_iff
    (accepted : PaginationRules.isAllowed sort AdminUserListQueryValidator.sortableFields = true) :
    SortsAsAsked citext (sorts citext) (SortOrder.ofKey User.createdAt).descending sort ↔
      Spelled sort := by
  constructor
  · rintro ⟨order, -, served⟩
    exact exists_order_iff.mp ⟨order, served⟩
  · intro spelled
    rcases of_isAllowed (show PaginationRules.isAllowed sort ((sorts citext).map (·.1)) = true from
        accepted) with blank | ⟨name, field, member, suffix, follows, equal, rfl⟩
    · refine ⟨_, (publishes_sorts citext).asksOnly_blank blank, ?_⟩
      rw [applySort, if_pos blank]
      rfl
    · refine ⟨_, (publishes_sorts citext).asksOnly_named member equal follows, ?_⟩
      have shown := (publishes_sorts citext).not_blank member equal suffix.1
      have free := free_of_equalsIgnoreCase equal ((publishes_sorts citext).free field member)
      -- The name is one of the three as they are spelled, so it is the one it equals but for case.
      have found : (sorts citext).lookup name = some field.2 := by
        have listed : name ∈ (sorts citext).map (·.1) := by
          have known := spelled.resolve_left shown
          rw [Option.getD_some, splitInTwo_suffix_fst free follows] at known
          exact known
        obtain ⟨other, inside, rfl⟩ := List.mem_map.mp listed
        have same : other = field := (publishes_sorts citext).eq_of_equal inside member
          (decide_eq_true rfl) equal
        rw [same]
        simp only [sorts, List.mem_cons, List.not_mem_nil, or_false] at member
        rcases member with rfl | rfl | rfl <;> rfl
      rw [applySort, if_neg shown]
      rcases splitInTwo_suffix free follows with ⟨read, rfl⟩ | ⟨read, rfl⟩ | ⟨read, rfl⟩
      · simp only [Option.getD_some, read, found]
        rfl
      · simp only [Option.getD_some, read, found]
        rfl
      · simp only [Option.getD_some, read, found]
        rfl

end AdminUserService

/-! ### The audit trail -/

namespace AuditQueryService

/-- The one field of the trail. -/
def sorts : List (String × SortOrder StoredAuditLogEntry) := [(occurredAtField, occurredAt)]

theorem publishes_sorts : Publishes sorts where
  distinct := List.nodup_singleton _
  shown := by simp [sorts, occurredAtField]
  free := by simp [sorts, occurredAtField]
  dark := by
    intro field member
    cases List.mem_singleton.mp member
    have name : occurredAtField.toList.all (isWhiteSpace · = false) = true := by decide
    exact List.all_iff_forall_prop.mp name

variable {sort : Option String}

/-- Blanks are no name, so they ask for the default. -/
theorem sort_blank (blank : isNullOrWhiteSpace sort = true) :
    AuditQueryService.sort sort = occurredAt.descending := by
  cases sort with
  | none => rfl
  | some text =>
      have white : ∀ character ∈ text.toList, isWhiteSpace character = true :=
        List.all_eq_true.mp blank
      have free : ':' ∉ text.toList := by
        intro member
        exact absurd (white ':' member) (by decide)
      have empty : trim text = "" := by
        rw [trim, List.dropWhile_eq_nil_iff.mpr white]
        rfl
      have unnamed : ClaimsPrincipal.equalsIgnoreCase "" occurredAtField = false := by decide
      unfold AuditQueryService.sort
      split
      · rfl
      · rfl
      · rename_i other equal
        cases equal
        simp only [splitInTwo_of_free free, empty, unnamed, Bool.not_false, if_true]

theorem sort_named {name : String}
    {suffix : String × (SortOrder StoredAuditLogEntry → SortOrder StoredAuditLogEntry)}
    (equal : ClaimsPrincipal.equalsIgnoreCase name occurredAtField = true)
    (follows : suffix ∈ directions) :
    AuditQueryService.sort (some (name ++ suffix.1)) = suffix.2 occurredAt := by
  have member : (occurredAtField, occurredAt) ∈ sorts := List.mem_cons_self
  have free := free_of_equalsIgnoreCase equal (publishes_sorts.free _ member)
  have trimmed : trim name = name :=
    trim_eq_self (dark_of_equalsIgnoreCase equal (publishes_sorts.dark _ member))
  have shown := publishes_sorts.not_blank member equal suffix.1
  have asc : trim "asc" = "asc" := by decide
  have desc : trim "desc" = "desc" := by decide
  have ascends : ClaimsPrincipal.equalsIgnoreCase "asc" "desc" = false := by decide
  have descends : ClaimsPrincipal.equalsIgnoreCase "desc" "desc" = true := by decide
  unfold AuditQueryService.sort
  split
  · rename_i impossible
    cases impossible
  · rename_i isEmpty
    rw [isEmpty] at shown
    exact absurd rfl shown
  · rename_i text _ isText
    cases isText
    rcases splitInTwo_suffix free follows with ⟨read, rfl⟩ | ⟨read, rfl⟩ | ⟨read, rfl⟩
    · simp only [read, trimmed, equal, Option.all_none, Bool.not_true, Bool.false_eq_true,
        if_false, if_true]
      rfl
    · simp only [read, trimmed, equal, asc, ascends, Option.all_some, Bool.not_true, Bool.not_false,
        Bool.false_eq_true, if_false, if_true]
      rfl
    · simp only [read, trimmed, equal, desc, descends, Option.all_some, Bool.not_true,
        Bool.false_eq_true,
        if_false]

theorem sort_asked
    (accepted : PaginationRules.isAllowed sort AuditLogQueryValidator.sortableFields = true) :
    AsksOnly sorts occurredAt.descending sort (AuditQueryService.sort sort) := by
  rcases of_isAllowed
    (show PaginationRules.isAllowed sort (sorts.map (·.1)) = true from accepted) with
    blank | ⟨name, field, member, suffix, follows, equal, rfl⟩
  · rw [sort_blank blank]
    exact publishes_sorts.asksOnly_blank blank
  · have named :=
      @Publishes.asksOnly_named _ _ _ _ _ occurredAt.descending publishes_sorts member equal follows
    cases List.mem_singleton.mp member
    rw [sort_named equal follows]
    exact named

end AuditQueryService

/-! ### Both lists -/

/-- The list of users is served in the order that an accepted sort asks for exactly where it spells
the name of the field as the service does, and the audit trail always is. Each field names the
column of its own name. -/
theorem sorts_asked_iff (citext : SortOrder String) :
    (∀ query : PagedQuery,
      PaginationRules.applySortRules query AdminUserListQueryValidator.sortableFields = [] →
        (AdminUserService.SortsAsAsked citext
            [("email", citext.on User.email), ("createdAt", .ofKey User.createdAt),
              ("emailVerified", .ofKey User.emailVerified)]
            (SortOrder.ofKey User.createdAt).descending query.sort ↔
          AdminUserService.Spelled query.sort)) ∧
    ∀ query : PagedQuery,
      PaginationRules.applySortRules query AuditLogQueryValidator.sortableFields = [] →
        AsksOnly [("occurredAt", .ofKey fun entry : StoredAuditLogEntry => entry.occurredAt)]
          (SortOrder.ofKey fun entry : StoredAuditLogEntry => entry.occurredAt).descending
          query.sort (AuditQueryService.sort query.sort) := by
  constructor
  · intro query accepted
    exact AdminUserService.sortsAsAsked_iff (ValidationFailure.unless_eq_nil.mp accepted)
  · intro query accepted
    exact AuditQueryService.sort_asked (ValidationFailure.unless_eq_nil.mp accepted)

theorem sorts_asked_iff_sample :
    AdminUserService.SortsAsAsked foldedOrder
        [("email", foldedOrder.on User.email), ("createdAt", .ofKey User.createdAt),
          ("emailVerified", .ofKey User.emailVerified)]
        (SortOrder.ofKey User.createdAt).descending (some "email:desc") ∧
      AsksOnly [("occurredAt", .ofKey fun entry : StoredAuditLogEntry => entry.occurredAt)]
        (SortOrder.ofKey fun entry : StoredAuditLogEntry => entry.occurredAt).descending
        (some "OCCURREDAT:asc") (AuditQueryService.sort (some "OCCURREDAT:asc")) :=
  ⟨((sorts_asked_iff foldedOrder).1 { sort := some "email:desc" } (by decide)).mpr (by decide),
    (sorts_asked_iff foldedOrder).2 { sort := some "OCCURREDAT:asc" } (by decide)⟩

/-- The validator accepts a name in capital letters, and the list of users fails. -/
theorem capitals_fail :
    PaginationRules.applySortRules
      { sort := some "EMAIL" } AdminUserListQueryValidator.sortableFields = [] ∧
      applySort (some "EMAIL") (AdminUserService.sorts foldedOrder) (.ofKey User.createdAt) =
        .error (.argument "Sort field 'EMAIL' is not sortable." "sort") ∧
      ¬ AdminUserService.SortsAsAsked foldedOrder
        [("email", foldedOrder.on User.email), ("createdAt", .ofKey User.createdAt),
          ("emailVerified", .ofKey User.emailVerified)]
        (SortOrder.ofKey User.createdAt).descending (some "EMAIL") := by
  have fails : applySort (some "EMAIL") (AdminUserService.sorts foldedOrder)
      (.ofKey User.createdAt) =
      .error (.argument "Sort field 'EMAIL' is not sortable." "sort") := by
    rfl
  refine ⟨by decide, fails, ?_⟩
  rintro ⟨order, -, served⟩
  rw [fails] at served
  cases served

end AuthStartpack
