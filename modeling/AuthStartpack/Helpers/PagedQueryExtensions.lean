import Mathlib
import AuthStartpack.Data.Database
import AuthStartpack.Table.Paging
import AuthStartpack.Validators.Common.PaginationRules

/-!
Owns `PagedQueryExtensions`, by which list endpoints order and page their
queries, and what a client reads that follows the pages to the last one.
-/

namespace AuthStartpack

open Table

structure PagedResponse (ρ : Type) where
  items : List ρ
  page : Int32
  pageSize : Int32
  totalCount : ℕ
deriving DecidableEq, Repr

/-- How a request for a page ends without one. -/
inductive PageFailure
  /-- The number of the page is no 32-bit integer. -/
  | modelBinding
  | validation (failures : List ValidationFailure)
  | argument (message paramName : String)
  /-- The database refuses a negative offset or limit, and a text with U+0000. -/
  | database
deriving DecidableEq, Repr

namespace PagedQueryExtensions

variable {α ρ : Type}

def applySort (sort : Option String) (allowed : List (String × SortOrder α))
    (defaultSort : SortOrder α) : Except PageFailure (SortOrder α) :=
  if isNullOrWhiteSpace sort then
    return defaultSort.descending
  else
    let (field, direction) := splitInTwo ':' (sort.getD "")
    match allowed.lookup field with
    | none => throw (.argument s!"Sort field '{field}' is not sortable." "sort")
    | some selector =>
        let descending := direction.any (ClaimsPrincipal.equalsIgnoreCase · "desc")
        return if descending then selector.descending else selector

/-- A sort is served where its field is one of the names, letter by letter. -/
theorem exists_applySort_iff {sort : Option String} {allowed : List (String × SortOrder α)}
    {defaultSort : SortOrder α} :
    (∃ order, applySort sort allowed defaultSort = .ok order) ↔
      isNullOrWhiteSpace sort = true ∨ (splitInTwo ':' (sort.getD "")).1 ∈ allowed.map (·.1) := by
  unfold applySort
  by_cases blank : isNullOrWhiteSpace sort = true
  · rw [if_pos blank]
    exact ⟨fun _ => .inl blank, fun _ => ⟨_, rfl⟩⟩
  · rw [if_neg blank, or_iff_right blank]
    generalize splitInTwo ':' (sort.getD "") = parts
    cases found : allowed.lookup parts.1 with
    | none =>
        have absent := List.lookup_eq_none_iff.mp found
        have unknown : parts.1 ∉ allowed.map (·.1) := by
          intro member
          obtain ⟨entry, inside, same⟩ := List.mem_map.mp member
          have := absent entry inside
          simp [same] at this
        exact ⟨fun ⟨order, resolved⟩ => by
          simp [found, throw, throwThe, MonadExceptOf.throw] at resolved,
          fun member => absurd member unknown⟩
    | some selector =>
        obtain ⟨entry, inside, same⟩ := List.lookup_isSome_iff.mp (by rw [found]; rfl)
        have known : parts.1 ∈ allowed.map (·.1) :=
          List.mem_map.mpr ⟨entry, inside, (beq_iff_eq.mp same).symm⟩
        exact ⟨fun _ => known, fun _ => by simp only [found]; exact ⟨_, rfl⟩⟩

/-- Unchecked 32-bit arithmetic. -/
def offset (query : PagedQuery) : ℤ := ((query.page - 1) * query.pageSize).toInt

/-- `Skip`, `Take` and `ToListAsync`. -/
def takePage (query : PagedQuery) (arrangement : List α) : Except PageFailure (List α) :=
  if offset query < 0 ∨ query.pageSize.toInt < 0 then
    throw .database
  else
    return (arrangement.drop (offset query).toNat).take query.pageSize.toInt.toNat

def toPagedResponseAsync (arranger : Arranger α) (order : SortOrder α) (query : PagedQuery)
    (projection : α → ρ) (source : List α) : Except PageFailure (PagedResponse ρ) := do
  let total := source.length
  let rows ← takePage query (arranger.arrange order source)
  return {
    items := rows.map projection
    page := query.page
    pageSize := query.pageSize
    totalCount := total }

end PagedQueryExtensions

/-! ### Reading all the pages -/

/-- The number of a page as model binding reads it. -/
def pageNumber (number : ℕ) : Except PageFailure Int32 :=
  if number < 2 ^ 31 then return Int32.ofNat number else throw .modelBinding

section Reading

variable {ρ : Type} (answer : ℕ → Except PageFailure (PagedResponse ρ))

/-- The pages from the first one to this one. -/
def readPages : ℕ → Except PageFailure (List ρ)
  | 0 => return []
  | number + 1 => do
      let earlier ← readPages number
      let response ← answer (number + 1)
      return earlier ++ response.items

/-- The total over the page size, rounded up. -/
def lastPage (total size : ℕ) : ℕ := (total + (size - 1)) / size

/-- The database refuses a query that has U+0000 in one of its texts. -/
def checkTexts (texts : List String) : Except PageFailure Unit :=
  if texts.all storable then return () else throw .database

/-- The first page gives the total, by which the pages are read. -/
def readAll : Except PageFailure (List ρ) := do
  let first ← answer 1
  readPages answer (lastPage first.totalCount first.pageSize.toInt.toNat)

/-- Every page is answered, and together they list these items once. -/
def Lists (items : List ρ) : Prop :=
  ∃ read, readAll answer = .ok read ∧ read.Perm items

variable {answer}

theorem not_lists_of_error {failure : PageFailure} {items : List ρ}
    (fails : answer 1 = .error failure) : ¬ Lists answer items := by
  rintro ⟨read, reading, -⟩
  simp only [readAll, fails] at reading
  cases reading

theorem readPages_eq_ok {response : ℕ → PagedResponse ρ} {last : ℕ}
    (answered : ∀ number < last, answer (number + 1) = .ok (response number)) :
    readPages answer last =
      .ok ((List.range last).flatMap fun number => (response number).items) := by
  induction last with
  | zero => rfl
  | succ last inductionHypothesis =>
      have earlier := inductionHypothesis fun number below => answered number (by omega)
      simp only [readPages, earlier, answered last (by omega), List.range_succ, List.flatMap_append]
      simp [bind, Except.bind, pure, Except.pure]

theorem answered_of_readPages {last : ℕ} {read : List ρ} (reads : readPages answer last = .ok read)
    {number : ℕ} (below : number < last) : ∃ response, answer (number + 1) = .ok response := by
  induction last generalizing read with
  | zero => omega
  | succ last inductionHypothesis =>
      cases earlier : readPages answer last with
      | error failure => simp [readPages, earlier, bind, Except.bind] at reads
      | ok items =>
          cases current : answer (last + 1) with
          | error failure => simp [readPages, earlier, current, bind, Except.bind] at reads
          | ok response =>
              rcases Nat.lt_succ_iff_lt_or_eq.mp below with before | rfl
              · exact inductionHypothesis earlier before
              · exact ⟨response, current⟩

theorem lastPage_iff {total size number : ℕ} (positive : 0 < size) :
    number * size < total ↔ number < lastPage total size := by
  rw [lastPage, Nat.lt_div_iff_mul_lt positive]
  omega

end Reading

/-! ### Numbers that fit -/

/-- The numbers of the pages, and how many rows are skipped, fit into 32 bits. -/
def PagesFit (total size : ℕ) : Prop :=
  lastPage total size < 2 ^ 31 ∧ (lastPage total size - 1) * size < 2 ^ 31

instance (total size : ℕ) : Decidable (PagesFit total size) :=
  inferInstanceAs (Decidable (_ ∧ _))

namespace PaginationRules

/-- What the rules on the paging parameters let through. -/
theorem applyPagingRules_eq_nil {query : PagedQuery} :
    applyPagingRules query = [] ↔
      1 ≤ query.page.toInt ∧ 1 ≤ query.pageSize.toInt ∧ query.pageSize.toInt ≤ 100 := by
  simp only [applyPagingRules, List.append_eq_nil_iff, ValidationFailure.unless_eq_nil,
    Bool.and_eq_true, decide_eq_true_eq, Int32.le_iff_toInt_le]
  rfl

end PaginationRules

/-! ### The pages of one order -/

namespace PagedQueryExtensions

variable {α ρ : Type}

/-- The answers to the requests for the pages, where each request finds rows of its own. -/
def answers (order : SortOrder α) (query : PagedQuery) (projection : α → ρ)
    (readings : ℕ → List α) (arrangers : ℕ → Arranger α) (number : ℕ) :
    Except PageFailure (PagedResponse ρ) := do
  let page ← pageNumber number
  toPagedResponseAsync (arrangers number) order { query with page } projection (readings number)

variable {order : SortOrder α} {query : PagedQuery} {projection : α → ρ} {rows : List α}
  {readings : ℕ → List α} {arrangers : ℕ → Arranger α} {number : ℕ}

theorem toPagedResponseAsync_eq_ok {arranger : Arranger α} (skips : 0 ≤ offset query)
    (takes : 0 ≤ query.pageSize.toInt) :
    toPagedResponseAsync arranger order query projection rows = .ok
      { items := (((arranger.arrange order rows).drop (offset query).toNat).take
          query.pageSize.toInt.toNat).map projection
        page := query.page
        pageSize := query.pageSize
        totalCount := rows.length } := by
  have valid : ¬ (offset query < 0 ∨ query.pageSize.toInt < 0) := by omega
  simp only [toPagedResponseAsync, takePage, if_neg valid]
  rfl

theorem offset_nonneg {arranger : Arranger α} {response : PagedResponse ρ}
    (answered : toPagedResponseAsync arranger order query projection rows = .ok response) :
    0 ≤ offset query := by
  by_contra negative
  have refused : offset query < 0 ∨ query.pageSize.toInt < 0 := by omega
  simp only [toPagedResponseAsync, takePage, if_pos refused] at answered
  cases answered

theorem answers_eq (representable : number + 1 < 2 ^ 31) :
    answers order query projection readings arrangers (number + 1) =
      toPagedResponseAsync (arrangers (number + 1)) order
        { query with page := Int32.ofNat (number + 1) } projection (readings (number + 1)) := by
  simp only [answers, pageNumber, if_pos representable]
  rfl

theorem representable_of_answers {response : PagedResponse ρ}
    (answered : answers order query projection readings arrangers (number + 1) = .ok response) :
    number + 1 < 2 ^ 31 := by
  by_contra large
  simp only [answers, pageNumber, if_neg large] at answered
  cases answered

theorem offset_eq (representable : number + 1 < 2 ^ 31) :
    offset { query with page := Int32.ofNat (number + 1) } =
      (number * query.pageSize.toInt).bmod (2 ^ 32) := by
  have page : (Int32.ofNat (number + 1) - 1).toInt = number := by
    rw [Int32.toInt_sub, Int32.toInt_ofNat_of_lt representable]
    show (((number + 1 : ℕ) : ℤ) - 1).bmod (2 ^ 32) = number
    rw [Int.bmod_eq_of_le (by omega) (by omega)]
    omega
  rw [offset, Int32.toInt_mul, page]

theorem answers_eq_ok (size : 1 ≤ query.pageSize.toInt) (representable : number + 1 < 2 ^ 31)
    (fits : number * query.pageSize.toInt.toNat < 2 ^ 31) :
    answers order query projection readings arrangers (number + 1) = .ok
      { items := (page query.pageSize.toInt.toNat number
          ((arrangers (number + 1)).arrange order (readings (number + 1)))).map projection
        page := Int32.ofNat (number + 1)
        pageSize := query.pageSize
        totalCount := (readings (number + 1)).length } := by
  have skipped : offset { query with page := Int32.ofNat (number + 1) } =
      (number * query.pageSize.toInt.toNat : ℕ) := by
    have width : ((query.pageSize.toInt.toNat : ℕ) : ℤ) = query.pageSize.toInt :=
      Int.toNat_of_nonneg (by omega)
    rw [offset_eq representable, Int.natCast_mul, width]
    have small : (number * query.pageSize.toInt.toNat : ℕ) < (2 : ℤ) ^ 31 := by exact_mod_cast fits
    rw [Int.natCast_mul, width] at small
    apply Int.bmod_eq_of_le
    · have : 0 ≤ number * query.pageSize.toInt := Int.mul_nonneg (by omega) (by omega)
      omega
    · omega
  rw [answers_eq representable]
  refine (toPagedResponseAsync_eq_ok ?_ ?_).trans ?_
  · rw [skipped]
    omega
  · show 0 ≤ query.pageSize.toInt
    omega
  · rw [skipped]
    rfl

theorem fits_of_answers {response : PagedResponse ρ}
    (answered : answers order query projection readings arrangers (number + 1) = .ok response) :
    ¬ (2 ^ 31 ≤ number * query.pageSize.toInt ∧ number * query.pageSize.toInt < 2 ^ 32) := by
  rintro ⟨low, high⟩
  have representable := representable_of_answers answered
  rw [answers_eq representable] at answered
  have skips := offset_nonneg answered
  rw [offset_eq representable, Int.bmod_def] at skips
  split at skips <;> omega

/-- The first offset that does not fit is negative as a 32-bit integer. -/
theorem pagesFit_of_answered (size : 1 ≤ query.pageSize.toInt) (small : query.pageSize.toInt ≤ 100)
    {last : ℕ} (answered : ∀ number < last, ∃ response,
      answers order query projection readings arrangers (number + 1) = .ok response) :
    last < 2 ^ 31 ∧ (last - 1) * query.pageSize.toInt.toNat < 2 ^ 31 := by
  obtain ⟨pageSize, width⟩ : ∃ pageSize : ℕ, query.pageSize.toInt = pageSize :=
    ⟨query.pageSize.toInt.toNat, by omega⟩
  have fits : ∀ number < last, number * pageSize < 2 ^ 31 := by
    intro number
    induction number with
    | zero => omega
    | succ number inductionHypothesis =>
        intro below
        obtain ⟨response, answer⟩ := answered (number + 1) below
        have correct := fits_of_answers answer
        have before := inductionHypothesis (by omega)
        have next : (number + 1) * pageSize = number * pageSize + pageSize := Nat.succ_mul _ _
        rw [width] at correct
        norm_cast at correct
        omega
  rw [width, Int.toNat_natCast]
  cases last with
  | zero => omega
  | succ last =>
      obtain ⟨response, answer⟩ := answered last (by omega)
      exact ⟨representable_of_answers answer, fits last (by omega)⟩

/-- Exactly when following the pages lists once every row that the first request finds, whatever the
database does. -/
theorem lists_answers_iff (accepted : PaginationRules.applyPagingRules query = []) {table : List α}
    (labels : (table.map projection).Nodup) (stored : ∀ number, readings number ⊆ table)
    (distinct : ∀ number, (readings number).Nodup)
    (drifts : Drifts (readings 1) fun number => readings (number + 1)) :
    (∀ arrangers, Lists (answers order query projection readings arrangers)
        ((readings 1).map projection)) ↔
      PagesFit (readings 1).length query.pageSize.toInt.toNat ∧
        order.Separated (readings 1) query.pageSize.toInt.toNat ∧
          ∀ number < lastPage (readings 1).length query.pageSize.toInt.toNat,
            order.AgreesUpTo (readings 1) (readings (number + 1))
              ((number + 1) * query.pageSize.toInt.toNat) := by
  obtain ⟨-, size, small⟩ := PaginationRules.applyPagingRules_eq_nil.mp accepted
  have positive : 0 < query.pageSize.toInt.toNat := by omega
  have covers : ∀ number, number * query.pageSize.toInt.toNat < (readings 1).length ↔
      number < lastPage (readings 1).length query.pageSize.toInt.toNat :=
    fun _ => lastPage_iff positive
  have first : ∀ arrangers, answers order query projection readings arrangers (0 + 1) = _ :=
    fun arrangers => answers_eq_ok size (by decide) (by omega)
  -- where the numbers fit, the pages are those of the arrangements
  have reads : ∀ arrangers, PagesFit (readings 1).length query.pageSize.toInt.toNat →
      readAll (answers order query projection readings arrangers) =
        .ok ((pages query.pageSize.toInt.toNat
          (lastPage (readings 1).length query.pageSize.toInt.toNat) fun number =>
            (arrangers (number + 1)).arrange order (readings (number + 1))).map projection) := by
    intro arrangers fit
    have all := readPages_eq_ok fun number (below : number <
        lastPage (readings 1).length query.pageSize.toInt.toNat) => by
      have offsets : number * query.pageSize.toInt.toNat < 2 ^ 31 :=
        lt_of_le_of_lt (Nat.mul_le_mul_right _ (by omega)) fit.2
      exact @answers_eq_ok _ _ order query projection readings arrangers number size
        (by have := fit.1; omega) offsets
    simp only [readAll, first arrangers, bind, Except.bind]
    rw [all, pages, List.map_flatMap]
  have exactly := @complete_iff _ order (readings 1) (fun number => readings (number + 1))
    query.pageSize.toInt.toNat (lastPage (readings 1).length query.pageSize.toInt.toNat)
      (distinct 1)
    (fun number => distinct (number + 1)) drifts positive covers
  constructor
  · intro complete
    have fit : PagesFit (readings 1).length query.pageSize.toInt.toNat := by
      obtain ⟨read, reading, -⟩ := complete fun _ => .sorting α
      simp only [readAll, first, bind, Except.bind] at reading
      exact pagesFit_of_answered size small fun number below =>
        answered_of_readPages reading below
    refine ⟨fit, exactly.mp ?_⟩
    intro arrangers
    obtain ⟨read, reading, listed⟩ := complete fun number => arrangers (number - 1)
    rw [reads _ fit] at reading
    cases reading
    refine perm_of_map labels ?_ (stored 1) (distinct 1) listed
    intro row member
    obtain ⟨number, -, listed⟩ := List.mem_flatMap.mp member
    have arranged := ((arrangers number).arranges order (readings (number + 1))).perm
    exact stored _ (arranged.mem_iff.mp (List.mem_of_mem_drop (List.mem_of_mem_take listed)))
  · rintro ⟨fit, condition⟩ arrangers
    refine ⟨_, reads arrangers fit, List.Perm.map projection ?_⟩
    exact exactly.mpr condition fun number => arrangers (number + 1)

end PagedQueryExtensions

end AuthStartpack
