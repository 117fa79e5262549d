import Mathlib.Algebra.Order.BigOperators.Group.Finset
import Mathlib.Data.List.Nodup
import Mathlib.Data.List.Perm.Basic
import Mathlib.Order.Defs.LinearOrder
import Mathlib.Order.Lattice

/-!
Owns the reading of rows page by page, where every page is a query of its own.
Such a query returns the rows in its order, and rows that tie in that order as
the database pleases; and it may find other rows than the query before it. Where
rows are only lost or only gained, the pages together list every row once exactly
when no two rows that tie lie on two sides of a boundary between pages, and no
row up to the end of a page is lost or gained at its reading.

The module names nothing of the modelled repository.
-/

namespace AuthStartpack.Table

/-- A total preorder, by which a query orders its rows. -/
structure SortOrder (α : Type) where
  le : α → α → Bool
  total : ∀ left right, le left right = true ∨ le right left = true
  trans : ∀ {first second third}, le first second = true → le second third = true →
    le first third = true

namespace SortOrder

variable {α β κ : Type}

/-- `OrderBy` -/
def ofKey [LinearOrder κ] (key : α → κ) : SortOrder α where
  le left right := key left ≤ key right
  total left right := by simpa using le_total (key left) (key right)
  trans := by
    intro first second third lower upper
    simp only [decide_eq_true_eq] at lower upper ⊢
    exact lower.trans upper

/-- The order of a column. -/
def on (order : SortOrder κ) (key : α → κ) : SortOrder α where
  le left right := order.le (key left) (key right)
  total left right := order.total (key left) (key right)
  trans := order.trans

/-- `OrderByDescending` -/
def descending (order : SortOrder α) : SortOrder α where
  le left right := order.le right left
  total left right := order.total right left
  trans lower upper := order.trans upper lower

/-- An order in which a query can return these rows. -/
structure Arranges (order : SortOrder α) (rows arrangement : List α) : Prop where
  perm : arrangement.Perm rows
  sorted : arrangement.Pairwise fun left right => order.le left right = true

variable (order : SortOrder α) {rows arrangement : List α} {row : α} {position : ℕ}

theorem refl (row : α) : order.le row row = true := (order.total row row).elim id id

/-- How many rows come before this one in every arrangement. -/
def before (rows : List α) (row : α) : ℕ := rows.countP fun other => !order.le row other

/-- How many rows do not come after this one in every arrangement. -/
def upTo (rows : List α) (row : α) : ℕ := rows.countP fun other => order.le other row

/-- Rows that tie lie on one side of this position. -/
def SeparatedAt (rows : List α) (position : ℕ) : Prop :=
  ∀ row ∈ rows, ¬ (order.before rows row < position ∧ position < order.upTo rows row)

instance : Decidable (order.SeparatedAt rows position) :=
  inferInstanceAs (Decidable (∀ row ∈ rows, ¬ _))

/-- No boundary between pages of this size lies between rows that tie. -/
def Separated (rows : List α) (size : ℕ) : Prop :=
  ∀ page, order.SeparatedAt rows (page * size)

theorem separated_iff_le {size : ℕ} :
    order.Separated rows size ↔ ∀ page ≤ rows.length, order.SeparatedAt rows (page * size) := by
  refine ⟨fun separated page _ => separated page, ?_⟩
  intro separated page
  by_cases early : page ≤ rows.length
  · exact separated page early
  · rintro row member ⟨low, high⟩
    have short : order.upTo rows row ≤ rows.length := List.countP_le_length
    cases size with
    | zero => omega
    | succ size =>
        have : page * 1 ≤ page * (size + 1) := Nat.mul_le_mul_left page (by omega)
        omega

instance {size : ℕ} : Decidable (order.Separated rows size) :=
  decidable_of_iff _ order.separated_iff_le.symm

namespace Arranges

variable {order}

theorem before_eq (arranges : order.Arranges rows arrangement) (row : α) :
    order.before rows row = order.before arrangement row :=
  (arranges.perm.countP_eq _).symm

theorem upTo_eq (arranges : order.Arranges rows arrangement) (row : α) :
    order.upTo rows row = order.upTo arrangement row :=
  (arranges.perm.countP_eq _).symm

theorem le_of_mem (arranges : order.Arranges rows arrangement) {left right : α}
    (first : left ∈ arrangement.take position) (second : right ∈ arrangement.drop position) :
    order.le left right = true := by
  have sorted := arranges.sorted
  rw [← List.take_append_drop position arrangement, List.pairwise_append] at sorted
  exact sorted.2.2 left first right second

theorem before_lt (arranges : order.Arranges rows arrangement)
    (member : row ∈ arrangement.take position) : order.before rows row < position := by
  rw [arranges.before_eq, before, ← List.take_append_drop position arrangement, List.countP_append]
  have none : (arrangement.drop position).countP (fun other => !order.le row other) = 0 := by
    apply List.countP_eq_zero.mpr
    intro other later
    simp [arranges.le_of_mem member later]
  have fewer : (arrangement.take position).countP (fun other => !order.le row other) <
      (arrangement.take position).length := by
    apply lt_of_le_of_ne List.countP_le_length
    intro all
    have := List.countP_eq_length.mp all row member
    simp [order.refl row] at this
  have short := List.length_take_le position arrangement
  omega

theorem lt_upTo (arranges : order.Arranges rows arrangement)
    (member : row ∈ arrangement.drop position) : position < order.upTo rows row := by
  rw [arranges.upTo_eq, upTo, ← List.take_append_drop position arrangement, List.countP_append]
  have all : (arrangement.take position).countP (fun other => order.le other row) =
      (arrangement.take position).length := by
    apply List.countP_eq_length.mpr
    intro other earlier
    exact arranges.le_of_mem earlier member
  have some : 0 < (arrangement.drop position).countP (fun other => order.le other row) :=
    List.countP_pos_iff.mpr ⟨row, member, order.refl row⟩
  have long : position ≤ arrangement.length := by
    have := List.length_pos_of_mem member
    rw [List.length_drop] at this
    omega
  rw [all, List.length_take_of_le long]
  omega

/-- Which rows come first does not depend on the arrangement. -/
theorem take_perm (arranges : order.Arranges rows arrangement)
    (separated : order.SeparatedAt rows position) :
    (arrangement.take position).Perm
      (rows.filter fun row => order.upTo rows row ≤ position) := by
  have mem_rows : ∀ row ∈ arrangement, row ∈ rows := fun row => arranges.perm.mem_iff.mp
  have first : (arrangement.take position).filter (fun row => order.upTo rows row ≤ position) =
      arrangement.take position := by
    apply List.filter_eq_self.mpr
    intro row member
    have low := arranges.before_lt member
    have := separated row (mem_rows row (List.mem_of_mem_take member))
    simp only [decide_eq_true_eq]
    omega
  have second : (arrangement.drop position).filter (fun row => order.upTo rows row ≤ position) =
      [] := by
    apply List.filter_eq_nil_iff.mpr
    intro row member
    have := arranges.lt_upTo member
    simp only [decide_eq_true_eq]
    omega
  have whole := List.filter_append (p := fun row => decide (order.upTo rows row ≤ position))
    (arrangement.take position) (arrangement.drop position)
  rw [List.take_append_drop, first, second, List.append_nil] at whole
  rw [← whole]
  exact arranges.perm.filter _

end Arranges

/-! ### Arrangements with a row at a given position -/

/-- `mergeSort` with this order. -/
def sort (rows : List α) : List α := rows.mergeSort order.le

theorem arranges_sort (rows : List α) : order.Arranges rows (order.sort rows) where
  perm := List.mergeSort_perm _ _
  sorted := @List.pairwise_mergeSort _ order.le (fun _ _ _ => order.trans)
    (fun left right => Bool.or_eq_true_iff.mpr (order.total left right)) rows

/-- The row comes after the first rows, before the last ones, and among those it ties with. -/
theorem arranges_append {first middle last : List α} (row : α)
    (early : ∀ other ∈ first, order.le row other = false)
    (tied : ∀ other ∈ middle, order.le other row = true ∧ order.le row other = true)
    (late : ∀ other ∈ last, order.le other row = false) :
    order.Arranges (first ++ (middle ++ last))
      (order.sort first ++ (middle ++ order.sort last)) where
  perm := ((order.arranges_sort first).perm).append
    (List.Perm.append_left _ (order.arranges_sort last).perm)
  sorted := by
    have lower : ∀ other ∈ order.sort first, order.le other row = true := by
      intro other member
      have := early other ((order.arranges_sort first).perm.mem_iff.mp member)
      exact (order.total other row).resolve_right (by simp [this])
    have upper : ∀ other ∈ middle ++ order.sort last, order.le row other = true := by
      intro other member
      rcases List.mem_append.mp member with inside | after
      · exact (tied other inside).2
      · have := late other ((order.arranges_sort last).perm.mem_iff.mp after)
        exact (order.total other row).resolve_left (by simp [this])
    apply List.pairwise_append.mpr
    refine ⟨(order.arranges_sort first).sorted, List.pairwise_append.mpr ⟨?_, ?_, ?_⟩, ?_⟩
    · apply List.pairwise_of_forall_mem_list
      intro left leftMember right rightMember
      exact order.trans (tied left leftMember).1 (tied right rightMember).2
    · exact (order.arranges_sort last).sorted
    · intro left leftMember right rightMember
      exact order.trans (tied left leftMember).1 (upper right (List.mem_append_right _ rightMember))
    · intro left leftMember right rightMember
      exact order.trans (lower left leftMember) (upper right rightMember)

theorem exists_arrangement (member : row ∈ rows) (low : order.before rows row ≤ position)
    (high : position < order.upTo rows row) :
    ∃ arrangement, order.Arranges rows arrangement ∧ arrangement[position]? = some row := by
  -- the rows before it, those that tie with it, and the rows after it
  let first := rows.filter fun other => !order.le row other
  let ties := (rows.filter fun other => order.le row other).filter fun other => order.le other row
  let last := (rows.filter fun other => order.le row other).filter fun other => !order.le other row
  have split : (first ++ (ties ++ last)).Perm rows := by
    have inner := List.filter_append_perm (fun other => order.le other row)
      (rows.filter fun other => order.le row other)
    have outer := List.filter_append_perm (fun other => order.le row other) rows
    exact (inner.append_left first).trans (List.perm_append_comm.trans outer)
  have tied : row ∈ ties := by simp [ties, member, order.refl row]
  obtain ⟨left, right, cut⟩ := List.append_of_mem tied
  have beforeLength : order.before rows row = first.length := List.countP_eq_length_filter
  have upToLength : order.upTo rows row = first.length + ties.length := by
    rw [upTo, ← split.countP_eq, List.countP_append, List.countP_append]
    have all : first.countP (fun other => order.le other row) = first.length := by
      apply List.countP_eq_length.mpr
      intro other early
      have := (List.mem_filter.mp early).2
      exact (order.total other row).resolve_right (by simpa using this)
    have every : ties.countP (fun other => order.le other row) = ties.length := by
      apply List.countP_eq_length.mpr
      intro other inside
      exact (List.mem_filter.mp inside).2
    have none : last.countP (fun other => order.le other row) = 0 := by
      apply List.countP_eq_zero.mpr
      intro other after
      simpa using (List.mem_filter.mp after).2
    omega
  have tiesLength : ties.length = (left ++ right).length + 1 := by simp [cut]; omega
  obtain ⟨offset, rfl⟩ : ∃ offset, position = first.length + offset :=
    ⟨position - first.length, by omega⟩
  have inside : offset ≤ (left ++ right).length := by omega
  let middle := (left ++ right).take offset ++ row :: (left ++ right).drop offset
  have rearranged : middle.Perm ties := by
    rw [cut]
    refine List.perm_middle.trans (List.Perm.trans ?_ List.perm_middle.symm)
    rw [List.take_append_drop]
  have early : ∀ other ∈ first, order.le row other = false := fun other among => by
    simpa using (List.mem_filter.mp among).2
  have among : ∀ other ∈ middle, order.le other row = true ∧ order.le row other = true := by
    intro other inner
    have := rearranged.mem_iff.mp inner
    simp only [ties, List.mem_filter] at this
    exact ⟨this.2, this.1.2⟩
  have late : ∀ other ∈ last, order.le other row = false := fun other after => by
    simpa using (List.mem_filter.mp after).2
  have arranged := order.arranges_append row early among late
  refine ⟨_, ⟨arranged.perm.trans ?_, arranged.sorted⟩, ?_⟩
  · exact ((rearranged.append_right last).append_left first).trans split
  · have sortedLength : (order.sort first).length = first.length :=
      (order.arranges_sort first).perm.length_eq
    rw [List.getElem?_append_right (by omega), sortedLength, Nat.add_sub_cancel_left,
      List.append_assoc, List.getElem?_append_right (by rw [List.length_take]; omega),
      List.length_take, Nat.min_eq_left inside, Nat.sub_self]
    rfl

/-! ### Rows that change between two readings -/

/-- The rows up to this position of one reading are those of the other. -/
def AgreesUpTo (rows reading : List α) (position : ℕ) : Prop :=
  ∀ row, order.before rows row < position → (row ∈ reading ↔ row ∈ rows)

section Before

variable {order} {left right : α}

theorem before_le_upTo (order : SortOrder α) (rows : List α) (row : α) :
    order.before rows row ≤ order.upTo rows row := by
  apply List.countP_mono_left
  intro other _ early
  exact (order.total other row).resolve_right (by simpa using early)

theorem closed_upTo (order : SortOrder α) (row : α) : ∀ left right, order.le left right = true →
    order.le right row = true → order.le left row = true := fun _ _ => order.trans

theorem closed_before (order : SortOrder α) (row : α) : ∀ left right, order.le left right = true →
    (!order.le row right) = true → (!order.le row left) = true := by
  intro left right lower early
  by_contra late
  have reached : order.le row left = true := by simpa using late
  simp [order.trans reached lower] at early

theorem before_le_before (rows : List α) (lower : order.le left right = true) :
    order.before rows left ≤ order.before rows right := by
  apply List.countP_mono_left
  intro other _ early
  by_contra late
  have reached : order.le right other = true := by simpa using late
  simp [order.trans lower reached] at early

theorem upTo_le_before (order : SortOrder α) (rows : List α) (lower : order.le right left = false) :
    order.upTo rows left ≤ order.before rows right := by
  apply List.countP_mono_left
  intro other _ early
  by_contra late
  have reached : order.le right other = true := by simpa using late
  simp [order.trans reached early] at lower

theorem before_lt_upTo (order : SortOrder α) (member : row ∈ rows) :
    order.before rows row < order.upTo rows row := by
  have arranges := order.arranges_sort rows
  obtain ⟨position, inside, found⟩ := List.getElem_of_mem (arranges.perm.mem_iff.mpr member)
  have low : order.before rows row < position + 1 :=
    arranges.before_lt (List.mem_take_iff_getElem.mpr ⟨position, by omega, found⟩)
  have high : position < order.upTo rows row :=
    arranges.lt_upTo (List.mem_drop_iff_getElem.mpr ⟨0, by omega, by simpa using found⟩)
  omega

/-- At every position there is a row. -/
theorem exists_at (order : SortOrder α) (short : position < rows.length) :
    ∃ row ∈ rows, order.before rows row ≤ position ∧ position < order.upTo rows row := by
  have arranges := order.arranges_sort rows
  have inside : position < (order.sort rows).length := by rwa [arranges.perm.length_eq]
  refine ⟨(order.sort rows)[position], arranges.perm.mem_iff.mp (List.getElem_mem inside), ?_, ?_⟩
  · apply Nat.lt_succ_iff.mp
    apply arranges.before_lt
    exact List.mem_take_iff_getElem.mpr ⟨position, by omega, rfl⟩
  · apply arranges.lt_upTo
    exact List.mem_drop_iff_getElem.mpr ⟨0, by omega, by simp⟩

/-- Rows that tie lie on one side of the position, be they among the rows or not. -/
theorem separatedAt_iff :
    order.SeparatedAt rows position ↔
      ∀ row, ¬ (order.before rows row < position ∧ position < order.upTo rows row) := by
  refine ⟨?_, fun separated row _ => separated row⟩
  rintro separated row ⟨low, high⟩
  -- a row that is among them and ties with this one
  obtain ⟨tied, member, less, greater⟩ : ∃ other ∈ rows, order.le other row = true ∧
      order.le row other = true := by
    by_contra none
    have same : order.upTo rows row ≤ order.before rows row := by
      apply List.countP_mono_left
      intro other member early
      by_contra late
      exact none ⟨other, member, early, by simpa using late⟩
    omega
  refine separated tied member ⟨?_, ?_⟩
  · exact lt_of_le_of_lt (before_le_before rows less) low
  · refine lt_of_lt_of_le high (List.countP_mono_left ?_)
    intro other _ early
    exact order.trans early greater

end Before

namespace AgreesUpTo

variable {order} {reading : List α} {boundary : ℕ}
variable (agrees : order.AgreesUpTo rows reading position) (distinct : rows.Nodup)
  (distinctReading : reading.Nodup)
include agrees distinct distinctReading

/-- A row at such a position has the same rows before it in both readings. -/
theorem countP_eq {before : α → Bool}
    (early : ∀ other, before other = true → order.before rows other < position) :
    reading.countP before = rows.countP before := by
  rw [List.countP_eq_length_filter, List.countP_eq_length_filter]
  apply List.Perm.length_eq
  rw [List.perm_ext_iff_of_nodup (distinctReading.filter _) (distinct.filter _)]
  intro other
  rw [List.mem_filter, List.mem_filter]
  exact and_congr_left fun holds => agrees other (early other holds)

theorem before_eq (early : order.before rows row < position) :
    order.before reading row = order.before rows row := by
  apply agrees.countP_eq distinct distinctReading
  intro other lower
  refine lt_of_le_of_lt (before_le_before rows ?_) early
  exact (order.total other row).resolve_right (by simpa using lower)

theorem upTo_eq (early : order.before rows row < position) :
    order.upTo reading row = order.upTo rows row := by
  apply agrees.countP_eq distinct distinctReading
  intro other lower
  exact lt_of_le_of_lt (before_le_before rows lower) early

omit distinctReading in
/-- What comes later in one reading comes later in the other. -/
theorem early_of_reading (early : order.before reading row < position) :
    order.before rows row < position := by
  by_contra late
  have arranges := order.arranges_sort rows
  have long : position ≤ (order.sort rows).length := by
    have : order.before rows row ≤ rows.length := List.countP_le_length
    rw [arranges.perm.length_eq]
    omega
  -- the first rows of the one reading are in the other, and before the row
  have included : (order.sort rows).take position ⊆
      reading.filter fun other => !order.le row other := by
    intro other member
    have before := arranges.before_lt member
    have stored := arranges.perm.mem_iff.mp (List.mem_of_mem_take member)
    refine List.mem_filter.mpr ⟨(agrees other before).mpr stored, ?_⟩
    by_contra above
    have lower := before_le_before rows (show order.le row other = true by simpa using above)
    omega
  have sorted : (order.sort rows).Nodup := arranges.perm.nodup_iff.mpr distinct
  have counted :=
    (List.subperm_of_subset (sorted.sublist (List.take_sublist _ _)) included).length_le
  rw [List.length_take_of_le long, ← List.countP_eq_length_filter] at counted
  exact absurd early (not_lt.mpr counted)

theorem separatedAt (within : boundary ≤ position) (separated : order.SeparatedAt rows boundary) :
    order.SeparatedAt reading boundary := by
  rintro row - ⟨low, high⟩
  have early := agrees.early_of_reading distinct (lt_of_lt_of_le low within)
  rw [agrees.before_eq distinct distinctReading early] at low
  rw [agrees.upTo_eq distinct distinctReading early] at high
  exact separatedAt_iff.mp separated row ⟨low, high⟩

/-- The rows before such a position are the same in both readings. -/
theorem filter_perm (within : boundary ≤ position) :
    (reading.filter fun row => order.upTo reading row ≤ boundary).Perm
      (rows.filter fun row => order.upTo rows row ≤ boundary) := by
  rw [List.perm_ext_iff_of_nodup (distinctReading.filter _) (distinct.filter _)]
  intro row
  simp only [List.mem_filter, decide_eq_true_eq]
  constructor
  · rintro ⟨member, low⟩
    have before := order.before_lt_upTo member
    have early := agrees.early_of_reading distinct
      (show order.before reading row < position by omega)
    rw [agrees.upTo_eq distinct distinctReading early] at low
    exact ⟨(agrees row early).mp member, low⟩
  · rintro ⟨member, low⟩
    have before := order.before_lt_upTo member
    have early : order.before rows row < position := by omega
    rw [← agrees.upTo_eq distinct distinctReading early] at low
    exact ⟨(agrees row early).mpr member, low⟩

end AgreesUpTo

end SortOrder

/-- How the database arranges the rows of one query. -/
structure Arranger (α : Type) where
  arrange : SortOrder α → List α → List α
  arranges : ∀ (order : SortOrder α) rows, order.Arranges rows (arrange order rows)

namespace Arranger

variable {α : Type}

/-- A database that sorts. -/
def sorting (α : Type) : Arranger α where
  arrange := SortOrder.sort
  arranges := SortOrder.arranges_sort

open Classical in
/-- A database that returns these rows in this arrangement. -/
noncomputable def returning {order : SortOrder α} {rows arrangement : List α}
    (arranges : order.Arranges rows arrangement) : Arranger α where
  arrange given stored := if given = order ∧ stored = rows then arrangement else given.sort stored
  arranges given stored := by
    by_cases same : given = order ∧ stored = rows
    · rw [if_pos same, same.1, same.2]
      exact arranges
    · rw [if_neg same]
      exact given.arranges_sort stored

theorem arrange_returning {order : SortOrder α} {rows arrangement : List α}
    (arranges : order.Arranges rows arrangement) :
    (returning arranges).arrange order rows = arrangement := if_pos ⟨rfl, rfl⟩

end Arranger

/-! ### All the pages -/

section Pages

variable {α β : Type}

/-- `Skip` and `Take`, for the page of this number, counted from 0. -/
def page (size number : ℕ) (arrangement : List α) : List α :=
  (arrangement.drop (number * size)).take size

/-- The first pages one after the other, each from an arrangement of its own. -/
def pages (size count : ℕ) (arrangements : ℕ → List α) : List α :=
  (List.range count).flatMap fun number => page size number (arrangements number)

theorem take_add_page (size number : ℕ) (arrangement : List α) :
    arrangement.take (number * size) ++ page size number arrangement =
      arrangement.take ((number + 1) * size) := by
  rw [page, Nat.succ_mul, List.take_add]

variable (order : SortOrder α) {rows : List α} {size : ℕ} {arrangements : ℕ → List α}

theorem pages_succ (size count : ℕ) (arrangements : ℕ → List α) :
    pages size (count + 1) arrangements =
      pages size count arrangements ++ page size count (arrangements count) := by
  simp [pages, List.range_succ, List.flatMap_append]

theorem mem_page {size number : ℕ} {arrangement : List α} {row : α} :
    row ∈ page size number arrangement ↔
      ∃ position, number * size ≤ position ∧ position < (number + 1) * size ∧
        arrangement[position]? = some row := by
  have width : (number + 1) * size = number * size + size := Nat.succ_mul number size
  rw [page, List.mem_iff_getElem?]
  constructor
  · rintro ⟨offset, found⟩
    by_cases inside : offset < size
    · rw [List.getElem?_take_of_lt inside, List.getElem?_drop] at found
      exact ⟨number * size + offset, by omega, by omega, found⟩
    · rw [List.getElem?_take_eq_none (by omega)] at found
      cases found
  · rintro ⟨position, low, high, found⟩
    refine ⟨position - number * size, ?_⟩
    rw [List.getElem?_take_of_lt (by omega), List.getElem?_drop,
      show number * size + (position - number * size) = position by omega]
    exact found

variable {order : SortOrder α} {rows : List α} {readings : ℕ → List α} {size count number : ℕ}

/-! #### What a page counts -/

theorem countP_lt {fewer more : List α} (included : fewer ⊆ more) (distinct : fewer.Nodup)
    {row : α} (member : row ∈ more) (missing : row ∉ fewer) {early : α → Bool}
    (holds : early row = true) : fewer.countP early < more.countP early := by
  have unique : (row :: fewer).Nodup := List.nodup_cons.mpr ⟨missing, distinct⟩
  have counted :=
    (List.subperm_of_subset unique (List.cons_subset.mpr ⟨member, included⟩)).countP_le early
  rw [List.countP_cons_of_pos holds] at counted
  exact counted

/-- How many rows of a page are among the first ones, as many as this. -/
def share (size number first : ℕ) : ℕ :=
  min ((number + 1) * size) first - min (number * size) first

theorem share_mono (size number : ℕ) {fewer more : ℕ} (le : fewer ≤ more) :
    share size number fewer ≤ share size number more := by
  have : number * size ≤ (number + 1) * size := Nat.mul_le_mul_right _ (by omega)
  unfold share
  omega

theorem sum_share (size count first : ℕ) :
    ∑ number ∈ Finset.range count, share size number first = min (count * size) first := by
  have grows : Monotone fun number => min (number * size) first := by
    intro fewer more le
    exact min_le_min_right _ (Nat.mul_le_mul_right _ le)
  have telescopes := Finset.sum_range_tsub grows count
  simpa [share] using telescopes

/-- What holds of the rows before a row that it holds of holds of the first rows. -/
theorem SortOrder.Arranges.countP_take {arrangement : List α}
    (arranges : order.Arranges rows arrangement) {early : α → Bool}
    (closed : ∀ left right, order.le left right = true → early right = true → early left = true)
    (position : ℕ) : (arrangement.take position).countP early = min position
    (rows.countP early) := by
  have whole := congrArg (List.countP early) (List.take_append_drop position arrangement)
  rw [List.countP_append, arranges.perm.countP_eq] at whole
  have short : (arrangement.take position).countP early ≤ (arrangement.take position).length :=
    List.countP_le_length
  have length := List.length_take_le position arrangement
  by_cases reached : ∃ row ∈ arrangement.drop position, early row = true
  · obtain ⟨row, later, holds⟩ := reached
    have all : (arrangement.take position).countP early = (arrangement.take position).length := by
      apply List.countP_eq_length.mpr
      intro other first
      exact closed other row (arranges.le_of_mem first later) holds
    have long : position ≤ arrangement.length := by
      have := List.length_pos_of_mem later
      rw [List.length_drop] at this
      omega
    rw [List.length_take_of_le long] at all
    omega
  · have none : (arrangement.drop position).countP early = 0 := by
      apply List.countP_eq_zero.mpr
      intro row later holds
      exact reached ⟨row, later, holds⟩
    omega

theorem countP_page {arrangement : List α} (arranges : order.Arranges rows arrangement)
    {early : α → Bool}
    (closed : ∀ left right, order.le left right = true → early right = true → early left = true) :
    (page size number arrangement).countP early = share size number (rows.countP early) := by
  have both := congrArg (List.countP early) (take_add_page size number arrangement)
  rw [List.countP_append, arranges.countP_take closed, arranges.countP_take closed] at both
  unfold share
  omega

/-! #### Readings that agree -/

theorem pages_perm_filter (distinct : rows.Nodup)
    (distinctReadings : ∀ number, (readings number).Nodup) (separated : order.Separated rows size)
    (agrees : ∀ number < count,
      order.AgreesUpTo rows (readings number) ((number + 1) * size))
    {arrangements : ℕ → List α}
    (arranges : ∀ number, order.Arranges (readings number) (arrangements number)) :
    (pages size count arrangements).Perm
      (rows.filter fun row => order.upTo rows row ≤ count * size) := by
  induction count with
  | zero =>
      have none : (rows.filter fun row => order.upTo rows row ≤ 0 * size) = [] := by
        apply List.filter_eq_nil_iff.mpr
        intro row member
        have := order.before_lt_upTo member
        simp only [decide_eq_true_eq]
        omega
      rw [none]
      exact List.Perm.refl []
  | succ count inductionHypothesis =>
      have earlier := inductionHypothesis fun number below => agrees number (by omega)
      have agreed := agrees count (by omega)
      have within : count * size ≤ (count + 1) * size := Nat.mul_le_mul_right _ (by omega)
      have start := ((arranges count).take_perm
        (agreed.separatedAt distinct (distinctReadings count) within (separated count))).trans
          (agreed.filter_perm distinct (distinctReadings count) within)
      have finish := ((arranges count).take_perm
        (agreed.separatedAt distinct (distinctReadings count) le_rfl (separated (count + 1)))).trans
          (agreed.filter_perm distinct (distinctReadings count) le_rfl)
      rw [pages_succ]
      refine (earlier.append_right _).trans ((start.symm.append_right _).trans ?_)
      rw [take_add_page]
      exact finish

/-! #### Pages that are complete -/

/-- Whatever order the database chooses among rows that tie, the pages together list these rows
once, where each page is of a reading of its own. -/
def Complete (order : SortOrder α) (rows : List α) (readings : ℕ → List α) (size count : ℕ) :
    Prop :=
  ∀ arrangers : ℕ → Arranger α,
    (pages size count fun number => (arrangers number).arrange order (readings number)).Perm rows

namespace Complete

variable (complete : Complete order rows readings size count)
include complete

/-- The rows of a page do not depend on the arrangement. -/
theorem page_perm (below : number < count) {first second : List α}
    (left : order.Arranges (readings number) first)
    (right : order.Arranges (readings number) second) :
    (page size number first).Perm (page size number second) := by
  -- the other pages are those of a database that sorts
  let others := ((List.range count).erase number).flatMap fun other =>
    page size other (order.sort (readings other))
  have listed : ∀ {arrangement : List α}, order.Arranges (readings number) arrangement →
      (page size number arrangement ++ others).Perm rows := by
    intro arrangement arranges
    let arrangers : ℕ → Arranger α := fun other =>
      if other = number then .returning arranges else .sorting α
    have split := (List.perm_cons_erase (List.mem_range.mpr below)).flatMap_right fun other =>
      page size other ((arrangers other).arrange order (readings other))
    have own : (arrangers number).arrange order (readings number) = arrangement := by
      simp only [arrangers, if_pos, Arranger.arrange_returning]
    have rest : (((List.range count).erase number).flatMap fun other =>
        page size other ((arrangers other).arrange order (readings other))) = others := by
      apply List.flatMap_congr
      intro other member
      have different := (List.nodup_range.mem_erase_iff.mp member).1
      simp only [arrangers, if_neg different]
      rfl
    rw [List.flatMap_cons, own, rest] at split
    exact split.symm.trans (complete arrangers)
  exact (List.perm_append_right_iff others).mp ((listed left).trans (listed right).symm)

/-- A row that can come on a page and beside it could be missed. -/
theorem not_beside (below : number < count) (distinct : (readings number).Nodup) {row : α}
    (member : row ∈ readings number) (inside outside : ℕ)
    (on : number * size ≤ inside ∧ inside < (number + 1) * size)
    (off : outside < number * size ∨ (number + 1) * size ≤ outside)
    (low : order.before (readings number) row ≤ inside ∧
      order.before (readings number) row ≤ outside)
    (high : inside < order.upTo (readings number) row ∧
      outside < order.upTo (readings number) row) : False := by
  obtain ⟨first, firstArranges, firstRow⟩ := order.exists_arrangement member low.1 high.1
  obtain ⟨second, secondArranges, secondRow⟩ := order.exists_arrangement member low.2 high.2
  have listed := (complete.page_perm below firstArranges secondArranges).mem_iff.mp
    (mem_page.mpr ⟨inside, on.1, on.2, firstRow⟩)
  obtain ⟨position, start, finish, found⟩ := mem_page.mp listed
  have unique : second.Nodup := secondArranges.perm.nodup_iff.mpr distinct
  have short : position < second.length := (List.getElem?_eq_some_iff.mp found).1
  have same : position = outside := (List.getElem?_inj short unique).mp (found.trans secondRow.symm)
  omega

theorem separatedAt_end (positive : 0 < size) (below : number < count)
    (distinct : (readings number).Nodup) :
    order.SeparatedAt (readings number) ((number + 1) * size) := by
  have width : (number + 1) * size = number * size + size := Nat.succ_mul number size
  rintro row member ⟨low, high⟩
  exact complete.not_beside below distinct member ((number + 1) * size - 1)
    ((number + 1) * size) (by omega) (by omega) (by omega) (by omega)

theorem separatedAt_start (positive : 0 < size) (below : number < count)
    (distinct : (readings number).Nodup) : order.SeparatedAt (readings number) (number * size) := by
  have width : (number + 1) * size = number * size + size := Nat.succ_mul number size
  rintro row member ⟨low, high⟩
  exact complete.not_beside below distinct member (number * size)
    (number * size - 1) (by omega) (by omega) (by omega) (by omega)

end Complete

/-- Rows of one table that are equal but for a label that tells its rows apart are equal. -/
theorem perm_of_map {label : α → β} {table left right : List α}
    (labels : (table.map label).Nodup) (leftIn : left ⊆ table) (rightIn : right ⊆ table)
    (distinct : right.Nodup) (same : (left.map label).Perm (right.map label)) :
    left.Perm right := by
  have apart : ∀ {first second : α}, first ∈ table → second ∈ table → label first = label second →
      first = second := fun inFirst inSecond => List.inj_on_of_nodup_map labels inFirst inSecond
  have rightLabels : (right.map label).Nodup := by
    refine List.Nodup.map_on ?_ distinct
    intro first inFirst second inSecond
    exact apart (rightIn inFirst) (rightIn inSecond)
  have leftDistinct : left.Nodup := List.Nodup.of_map label (same.nodup_iff.mpr rightLabels)
  rw [List.perm_ext_iff_of_nodup leftDistinct distinct]
  intro row
  constructor
  · intro member
    obtain ⟨other, inside, equal⟩ := List.mem_map.mp (same.mem_iff.mp (List.mem_map_of_mem member))
    rwa [← apart (rightIn inside) (leftIn member) equal]
  · intro member
    obtain ⟨other, inside, equal⟩ := List.mem_map.mp (same.mem_iff.mpr (List.mem_map_of_mem member))
    rwa [← apart (leftIn inside) (rightIn member) equal]

/-- The readings have lost rows, or they have gained rows. -/
def Drifts (rows : List α) (readings : ℕ → List α) : Prop :=
  (∀ number, readings number ⊆ rows) ∨ ∀ number, rows ⊆ readings number

namespace Complete

variable (complete : Complete order rows readings size count)
include complete

/-- As many of the first rows are on a page as if it were of these rows. -/
theorem share_eq (distinct : rows.Nodup) (distinctReadings : ∀ number, (readings number).Nodup)
    (drifts : Drifts rows readings) (long : rows.length ≤ count * size) {early : α → Bool}
    (closed : ∀ left right, order.le left right = true → early right = true → early left = true)
    (below : number < count) :
    share size number ((readings number).countP early) = share size number (rows.countP early) := by
  have listed : ∑ number ∈ Finset.range count, share size number ((readings number).countP early) =
      rows.countP early := by
    have counted := (complete fun _ => .sorting α).countP_eq early
    rw [← counted]
    generalize count = pagesRead
    induction pagesRead with
    | zero => rfl
    | succ last inductionHypothesis =>
        rw [Finset.sum_range_succ, inductionHypothesis, pages_succ, List.countP_append,
          countP_page ((Arranger.sorting α).arranges order (readings last)) closed]
  have ideal : ∑ number ∈ Finset.range count, share size number (rows.countP early) =
      rows.countP early := by
    have few : rows.countP early ≤ rows.length := List.countP_le_length
    rw [sum_share]
    omega
  have same := listed.trans ideal.symm
  rcases drifts with fewer | more
  · refine (Finset.sum_eq_sum_iff_of_le ?_).mp same number (Finset.mem_range.mpr below)
    intro other _
    have included := List.subperm_of_subset (distinctReadings other) (fewer other)
    exact share_mono _ _ (included.countP_le _)
  · refine ((Finset.sum_eq_sum_iff_of_le ?_).mp same.symm number (Finset.mem_range.mpr below)).symm
    intro other _
    have included := List.subperm_of_subset distinct (more other)
    exact share_mono _ _ (included.countP_le _)

/-- No boundary between pages lies between rows that tie. -/
theorem separated (distinct : rows.Nodup) (distinctReadings : ∀ number, (readings number).Nodup)
    (drifts : Drifts rows readings) (positive : 0 < size) (long : rows.length ≤ count * size) :
    order.Separated rows size := by
  intro boundary
  rw [SortOrder.separatedAt_iff]
  rintro row ⟨low, high⟩
  obtain ⟨number, rfl⟩ : ∃ number, boundary = number + 1 :=
    Nat.exists_eq_succ_of_ne_zero (by rintro rfl; simp at low)
  have width : (number + 1) * size = number * size + size := Nat.succ_mul number size
  have below : number + 1 < count := by
    have few : order.upTo rows row ≤ rows.length := List.countP_le_length
    by_contra past
    have := Nat.mul_le_mul_right size (not_lt.mp past)
    omega
  rcases drifts with fewer | more
  · -- the row ties over the start of the next page, which has no more rows before it
    have counted := complete.share_eq distinct distinctReadings (.inl fewer) long
      (order.closed_upTo row) below
    have lower : order.before (readings (number + 1)) row ≤ order.before rows row :=
      (List.subperm_of_subset (distinctReadings _) (fewer _)).countP_le _
    have apart := complete.separatedAt_start positive below (distinctReadings _)
    refine SortOrder.separatedAt_iff.mp apart row ⟨by omega, ?_⟩
    have next : (number + 1 + 1) * size = (number + 1) * size + size := Nat.succ_mul _ size
    unfold share at counted
    unfold SortOrder.upTo at high ⊢
    omega
  · -- the row ties over the end of this page, which has no fewer rows up to it
    have counted := complete.share_eq distinct distinctReadings (.inr more) long
      (order.closed_before row) (Nat.lt_of_succ_lt below)
    have upper : order.upTo rows row ≤ order.upTo (readings number) row :=
      (List.subperm_of_subset distinct (more _)).countP_le _
    have apart := complete.separatedAt_end positive (Nat.lt_of_succ_lt below) (distinctReadings _)
    refine SortOrder.separatedAt_iff.mp apart row ⟨?_, by omega⟩
    unfold share at counted
    unfold SortOrder.before at low ⊢
    omega

/-- The rows up to the end of a page are those that its reading has. -/
theorem agreesUpTo (distinct : rows.Nodup) (distinctReadings : ∀ number, (readings number).Nodup)
    (drifts : Drifts rows readings) (positive : 0 < size) (long : rows.length ≤ count * size)
    (below : number < count) (begins : number * size < rows.length) :
    order.AgreesUpTo rows (readings number) ((number + 1) * size) := by
  have width : (number + 1) * size = number * size + size := Nat.succ_mul number size
  obtain ⟨first, -, low, high⟩ := SortOrder.exists_at order begins
  have upToShare := fun other => complete.share_eq distinct distinctReadings drifts long
    (order.closed_upTo other) below
  have beforeShare := fun other => complete.share_eq distinct distinctReadings drifts long
    (order.closed_before other) below
  intro row early
  rcases drifts with fewer | more
  · refine ⟨fun member => fewer number member, fun member => ?_⟩
    by_contra missing
    -- no row from this one on can be the last one of the page or come after the page began
    have passed : ∀ other, order.le row other = true →
        order.before rows other < (number + 1) * size → order.upTo rows other ≤ number * size := by
      intro other later within
      have lost : order.upTo (readings number) other < order.upTo rows other :=
        countP_lt (fewer number) (distinctReadings number) member missing later
      have counted := upToShare other
      have apart := SortOrder.separatedAt_iff.mp
        (complete.separated distinct distinctReadings (.inl fewer) positive long (number + 1)) other
      unfold share at counted
      unfold SortOrder.upTo at lost apart ⊢
      omega
    have own := passed row (order.refl row) early
    have ordered := order.before_le_upTo rows row
    cases later : order.le row first with
    | true =>
        have := passed first later (by omega)
        omega
    | false =>
        have := order.upTo_le_before rows later
        omega
  · refine ⟨fun member => ?_, fun member => more number member⟩
    by_contra missing
    have passed : ∀ other, order.le row other = true →
        order.before rows other < (number + 1) * size → order.upTo rows other < number * size := by
      intro other later within
      have gained : order.upTo rows other < order.upTo (readings number) other :=
        countP_lt (more number) distinct member missing later
      have counted := upToShare other
      have before := beforeShare other
      have apart := SortOrder.separatedAt_iff.mp
        (complete.separatedAt_end positive below (distinctReadings number)) other
      unfold share at counted before
      unfold SortOrder.upTo SortOrder.before at *
      omega
    have own := passed row (order.refl row) early
    have ordered := order.before_le_upTo rows row
    cases later : order.le row first with
    | true =>
        have := passed first later (by omega)
        omega
    | false =>
        have := order.upTo_le_before rows later
        omega

end Complete

/-- Exactly when no row is repeated or missed, whatever order the database chooses among rows that
tie. -/
theorem complete_iff (distinct : rows.Nodup) (distinctReadings : ∀ number, (readings number).Nodup)
    (drifts : Drifts rows readings) (positive : 0 < size)
    (covers : ∀ number, number * size < rows.length ↔ number < count) :
    Complete order rows readings size count ↔ order.Separated rows size ∧
      ∀ number < count, order.AgreesUpTo rows (readings number) ((number + 1) * size) := by
  have long : rows.length ≤ count * size := not_lt.mp ((covers count).not.mpr (lt_irrefl count))
  constructor
  · intro complete
    refine ⟨complete.separated distinct distinctReadings drifts positive long, ?_⟩
    intro number below
    exact complete.agreesUpTo distinct distinctReadings drifts positive long below
      ((covers number).mpr below)
  · rintro ⟨separated, agrees⟩ arrangers
    refine (pages_perm_filter distinct distinctReadings separated agrees
      fun number => (arrangers number).arranges order (readings number)).trans ?_
    have all : (rows.filter fun row => order.upTo rows row ≤ count * size) = rows := by
      apply List.filter_eq_self.mpr
      intro row _
      have few : order.upTo rows row ≤ rows.length := List.countP_le_length
      simp only [decide_eq_true_eq]
      omega
    rw [all]

end Pages

end AuthStartpack.Table
