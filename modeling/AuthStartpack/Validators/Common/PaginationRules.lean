import Mathlib
import AuthStartpack.Data.Database
import AuthStartpack.Encoding.Splitting
import AuthStartpack.Handlers.ClaimsPrincipal

/-!
Owns the paging parameters that list endpoints share, and the rules of their
validators. Values out of range are rejected and not clamped.
-/

namespace AuthStartpack

/-- One entry of a validation result. -/
structure ValidationFailure where
  propertyName : String
  errorCode : String
  errorMessage : String
deriving DecidableEq, Repr

/-- A rule that fails with this entry where its condition does not hold. -/
def ValidationFailure.unless (failure : ValidationFailure) (condition : Bool) :
    List ValidationFailure :=
  if condition then [] else [failure]

@[simp]
theorem ValidationFailure.unless_eq_nil {failure : ValidationFailure} {condition : Bool} :
    failure.unless condition = [] ↔ condition = true := by
  cases condition <;> simp [ValidationFailure.unless]

/-- `string.Length`, which counts UTF-16 code units. -/
def utf16Length (text : String) : ℕ :=
  (text.toList.map fun character => if character.toNat < 0x10000 then 1 else 2).sum

namespace ValidationErrorCodes

def tooLong : String := "too_long"
def pageOutOfRange : String := "page_out_of_range"
def pageSizeOutOfRange : String := "page_size_out_of_range"
def sortFieldNotAllowed : String := "sort_field_not_allowed"
def rangeInverted : String := "range_inverted"

end ValidationErrorCodes

structure PagedQuery where
  page : Int32 := 1
  pageSize : Int32 := 20
  sort : Option String := none
deriving DecidableEq, Repr

namespace PaginationRules

def maximumPageSize : Int32 := 100

def applyPagingRules (query : PagedQuery) : List ValidationFailure :=
  ValidationFailure.unless
    ⟨"Page", ValidationErrorCodes.pageOutOfRange, "Page must be 1 or greater."⟩ (1 ≤ query.page) ++
  ValidationFailure.unless
    ⟨"PageSize", ValidationErrorCodes.pageSizeOutOfRange,
      s!"Page size must be between 1 and {maximumPageSize}."⟩
    (1 ≤ query.pageSize && query.pageSize ≤ maximumPageSize)

/-- One of these fields, and at most `asc` or `desc` after it. -/
def isAllowed (sort : Option String) (allowedFields : List String) : Bool :=
  isNullOrWhiteSpace sort || sort.any fun text =>
    let parts := split ':' text
    allowedFields.any (ClaimsPrincipal.equalsIgnoreCase (parts.headD "")) &&
      decide (parts.length ≤ 2) &&
      (parts.length = 1 || ["asc", "desc"].contains (parts.getD 1 ""))

def applySortRules (query : PagedQuery) (allowedFields : List String) : List ValidationFailure :=
  let fields := String.intercalate ", " allowedFields
  ValidationFailure.unless
    ⟨"Sort", ValidationErrorCodes.sortFieldNotAllowed, s!"Sort field must be one of: {fields}."⟩
    (isAllowed query.sort allowedFields)

end PaginationRules

end AuthStartpack
