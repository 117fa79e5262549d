import AuthStartpack.Users.Paging

/-!
Owns the arithmetic of the paging executors. Both skip a product of two numbers
that the rules bound one by one: the page only from below. Past 32 bits the
product is another number, by which the database refuses the request or answers
with an earlier page.
-/

namespace AuthStartpack

open Table

namespace PagedQueryExtensions

/-- The rows of the earlier pages. -/
def earlierRows (query : PagedQuery) : ℤ := (query.page.toInt - 1) * query.pageSize.toInt

/-- The rows of the earlier pages are skipped, and no row is left once they are all the rows. -/
structure ExactPaging {α ρ : Type} (query : PagedQuery) (total : ℕ)
    (answer : Arranger α → Except PageFailure (PagedResponse ρ)) : Prop where
  product : offset query = earlierRows query
  skips : 0 ≤ offset query
  pastTheEnd : total ≤ earlierRows query → ∀ arranger, ∃ response,
    answer arranger = .ok response ∧ response.items = [] ∧ response.totalCount = total

section Offsets

variable {α ρ : Type} {query : PagedQuery}

/-- The page before an accepted one has a 32-bit number too. -/
theorem toInt_page_sub_one (positive : 1 ≤ query.page.toInt) :
    (query.page - 1).toInt = query.page.toInt - 1 := by
  have bound := query.page.toInt_lt
  rw [Int32.toInt_sub]
  show (query.page.toInt - 1).bmod (2 ^ 32) = query.page.toInt - 1
  apply Int.bmod_eq_of_le <;> omega

theorem offset_eq_bmod (positive : 1 ≤ query.page.toInt) :
    offset query = (earlierRows query).bmod (2 ^ 32) := by
  rw [offset, Int32.toInt_mul, toInt_page_sub_one positive, earlierRows]

theorem earlierRows_nonneg (accepted : PaginationRules.applyPagingRules query = []) :
    0 ≤ earlierRows query := by
  obtain ⟨page, size, -⟩ := PaginationRules.applyPagingRules_eq_nil.mp accepted
  apply Int.mul_nonneg
  · omega
  · omega

/-- The offset is the product exactly where the product has 31 bits. -/
theorem offset_eq_earlierRows_iff (accepted : PaginationRules.applyPagingRules query = []) :
    offset query = earlierRows query ↔ earlierRows query < 2 ^ 31 := by
  have positive := (PaginationRules.applyPagingRules_eq_nil.mp accepted).1
  have nonneg := earlierRows_nonneg accepted
  constructor
  · intro product
    have bound := ((query.page - 1) * query.pageSize).toInt_lt
    rw [← product]
    exact bound
  · intro fits
    rw [offset_eq_bmod positive]
    apply Int.bmod_eq_of_le <;> omega

theorem exactPaging_iff (accepted : PaginationRules.applyPagingRules query = [])
    (rows : List α) (order : SortOrder α) (projection : α → ρ) :
    ExactPaging query rows.length
        (fun arranger => toPagedResponseAsync arranger order query projection rows) ↔
      earlierRows query < 2 ^ 31 := by
  constructor
  · intro exact_
    exact (offset_eq_earlierRows_iff accepted).mp exact_.product
  · intro fits
    have product := (offset_eq_earlierRows_iff accepted).mpr fits
    have skips : 0 ≤ offset query := by
      rw [product]
      exact earlierRows_nonneg accepted
    refine ⟨product, skips, ?_⟩
    intro beyond arranger
    have takes : 0 ≤ query.pageSize.toInt := by
      have size := (PaginationRules.applyPagingRules_eq_nil.mp accepted).2.1
      omega
    refine ⟨_, toPagedResponseAsync_eq_ok skips takes, ?_, rfl⟩
    have none : ((arranger.arrange order rows).drop (offset query).toNat) = [] := by
      apply List.drop_eq_nil_of_le
      rw [(arranger.arranges order rows).1.length_eq, product]
      omega
    rw [none, List.take_nil, List.map_nil]

end Offsets

end PagedQueryExtensions

open PagedQueryExtensions

/-- Both executors page exactly where the rows of the earlier pages have a 31-bit number. -/
theorem paging_exact_iff {α ρ : Type} (rows : List α) (order : SortOrder α) (projection : α → ρ)
    (entries : List StoredAuditLogEntry) (query : AuditLogQuery)
    (accepted : PaginationRules.applyPagingRules query.toPagedQuery = []) :
    (ExactPaging query.toPagedQuery rows.length
        (fun arranger => toPagedResponseAsync arranger order query.toPagedQuery projection rows) ↔
      earlierRows query.toPagedQuery < 2 ^ 31) ∧
    (ExactPaging query.toPagedQuery (AuditQueryService.filter entries query).length
        (fun arranger => AuditQueryService.queryAsync arranger entries query) ↔
      earlierRows query.toPagedQuery < 2 ^ 31) := by
  constructor
  · exact exactPaging_iff accepted rows order projection
  · exact exactPaging_iff accepted _ _ AuditQueryService.toResponse

/-- The last pages of the largest size that fit are past the end of the rows. -/
theorem paging_exact_iff_sample :
    ExactPaging { page := 21474837, pageSize := 100 } 2
        (fun arranger => toPagedResponseAsync arranger (.ofKey id)
          { page := 21474837, pageSize := 100 } id [4, 2]) ∧
      ExactPaging { page := 21474837, pageSize := 100 } 2
        (fun arranger => AuditQueryService.queryAsync arranger simultaneousEntries
          { page := 21474837, pageSize := 100 }) := by
  have fits : earlierRows { page := 21474837, pageSize := 100 } < 2 ^ 31 := by decide
  have pages := paging_exact_iff [4, 2] (.ofKey id) id simultaneousEntries
    { page := 21474837, pageSize := 100 } (by decide)
  constructor
  · exact pages.1.mpr fits
  · exact pages.2.mpr fits

/-- One accepted page past the end is an error, and another one is the first page. -/
theorem paging_wraps :
    (PaginationRules.applyPagingRules { page := 2147483647, pageSize := 100 } = [] ∧
      ∀ arranger, AuditQueryService.queryAsync arranger simultaneousEntries
        { page := 2147483647, pageSize := 100 } = .error .database) ∧
    PaginationRules.applyPagingRules { page := 67108865, pageSize := 64 } = [] ∧
      ∀ arranger, (AuditQueryService.queryAsync arranger simultaneousEntries
        { page := 67108865, pageSize := 64 }).map (·.items) =
          (AuditQueryService.queryAsync arranger simultaneousEntries
            { page := 1, pageSize := 64 }).map (·.items) := by
  refine ⟨⟨by decide, ?_⟩, by decide, ?_⟩
  · intro arranger
    have negative : offset { page := 2147483647, pageSize := 100 } < 0 := by decide
    unfold AuditQueryService.queryAsync toPagedResponseAsync takePage
    rw [if_pos (.inl negative)]
    rfl
  · intro arranger
    have first : offset { page := 67108865, pageSize := 64 } = 0 := by decide
    have same : offset { page := 1, pageSize := 64 } = 0 := by decide
    unfold AuditQueryService.queryAsync
    rw [toPagedResponseAsync_eq_ok (by rw [first]) (by decide),
      toPagedResponseAsync_eq_ok (by rw [same]) (by decide), first, same]
    rfl

end AuthStartpack
