import Mathlib.Data.List.Nodup

/-!
Owns tables as lists of rows, with the three statements that change one: update
the rows that satisfy a predicate, delete them, append a row. The lemmas say
which rows are there afterwards and that a column no statement writes keeps its
values, in particular a key column that identifies rows.

The module names nothing of the modelled repository.
-/

namespace AuthStartpack.Table

variable {ρ κ : Type}

/-- Rewrite the rows that satisfy `pred`. -/
def updateWhere (pred : ρ → Bool) (write : ρ → ρ) (rows : List ρ) : List ρ :=
  rows.map fun row => if pred row then write row else row

/-- Remove the rows that satisfy `pred`. -/
def deleteWhere (pred : ρ → Bool) (rows : List ρ) : List ρ :=
  rows.filter fun row => !pred row

/-- The rows carry pairwise different keys. -/
def Keyed (key : ρ → κ) (rows : List ρ) : Prop :=
  (rows.map key).Nodup

instance [DecidableEq κ] (key : ρ → κ) (rows : List ρ) : Decidable (Keyed key rows) :=
  inferInstanceAs (Decidable (rows.map key).Nodup)

section Membership

variable {pred : ρ → Bool} {write : ρ → ρ} {rows : List ρ} {row : ρ}

theorem mem_updateWhere :
    row ∈ updateWhere pred write rows ↔
      ∃ old ∈ rows, (if pred old then write old else old) = row := by
  simp [updateWhere]

theorem mem_updateWhere_cases (member : row ∈ updateWhere pred write rows) :
    (row ∈ rows ∧ pred row = false) ∨ ∃ old ∈ rows, pred old = true ∧ write old = row := by
  obtain ⟨old, oldMember, equal⟩ := mem_updateWhere.mp member
  cases hit : pred old with
  | false =>
      simp only [hit, Bool.false_eq_true, if_false] at equal
      subst equal
      exact .inl ⟨oldMember, hit⟩
  | true =>
      simp only [hit, if_true] at equal
      exact .inr ⟨old, oldMember, hit, equal⟩

theorem mem_updateWhere_of_not (member : row ∈ rows) (miss : pred row = false) :
    row ∈ updateWhere pred write rows :=
  mem_updateWhere.mpr ⟨row, member, by simp [miss]⟩

theorem mem_updateWhere_of_hit (member : row ∈ rows) (hit : pred row = true) :
    write row ∈ updateWhere pred write rows :=
  mem_updateWhere.mpr ⟨row, member, by simp [hit]⟩

@[simp]
theorem mem_deleteWhere : row ∈ deleteWhere pred rows ↔ row ∈ rows ∧ pred row = false := by
  simp [deleteWhere]

theorem updateWhere_eq_self (miss : ∀ row ∈ rows, pred row = false) :
    updateWhere pred write rows = rows := by
  unfold updateWhere
  conv_rhs => rw [← List.map_id rows]
  refine List.map_congr_left ?_
  intro row member
  simp [miss row member]

end Membership

section Columns

variable {pred : ρ → Bool} {write : ρ → ρ} {rows : List ρ}

/-- A column that every row keeps, when all rows are rewritten. -/
theorem map_rewrite {column : ρ → κ} (keeps : ∀ row ∈ rows, column (write row) = column row) :
    (rows.map write).map column = rows.map column := by
  rw [List.map_map]
  exact List.map_congr_left keeps

/-- A column that `write` leaves alone keeps its values. -/
theorem map_updateWhere {column : ρ → κ} (keeps : ∀ row, column (write row) = column row) :
    (updateWhere pred write rows).map column = rows.map column := by
  unfold updateWhere
  rw [List.map_map]
  refine List.map_congr_left ?_
  intro row _
  simp only [Function.comp_apply]
  split
  · exact keeps row
  · rfl

end Columns

section Keys

variable {key : ρ → κ} {pred : ρ → Bool} {write : ρ → ρ} {rows : List ρ}

theorem Keyed.eq_of_key (keyed : Keyed key rows) {left right : ρ} (leftMember : left ∈ rows)
    (rightMember : right ∈ rows) (same : key left = key right) : left = right :=
  List.inj_on_of_nodup_map keyed leftMember rightMember same

theorem Keyed.updateWhere (keyed : Keyed key rows) (keeps : ∀ row, key (write row) = key row) :
    Keyed key (updateWhere pred write rows) := by
  unfold Keyed
  rw [map_updateWhere keeps]
  exact keyed

theorem Keyed.deleteWhere (keyed : Keyed key rows) : Keyed key (deleteWhere pred rows) :=
  List.Sublist.nodup (List.Sublist.map key List.filter_sublist) keyed

theorem Keyed.append (keyed : Keyed key rows) {row : ρ}
    (fresh : ∀ other ∈ rows, key other ≠ key row) : Keyed key (rows ++ [row]) := by
  unfold Keyed
  rw [List.map_append, List.nodup_append]
  refine ⟨keyed, by simp, ?_⟩
  intro left leftMember right rightMember
  obtain ⟨other, otherMember, rfl⟩ := List.mem_map.mp leftMember
  simp only [List.map_cons, List.map_nil, List.mem_singleton] at rightMember
  subst rightMember
  exact fresh other otherMember

/-- In a keyed table, looking a row up by its key finds it. -/
theorem Keyed.find?_key [DecidableEq κ] (keyed : Keyed key rows) {row : ρ} (member : row ∈ rows) :
    rows.find? (fun candidate => key candidate = key row) = some row := by
  cases found : rows.find? (fun candidate => key candidate = key row) with
  | none =>
      have none := List.find?_eq_none.mp found row member
      simp at none
  | some other =>
      have otherMember := List.mem_of_find?_eq_some found
      have sameKey := List.find?_some found
      simp only [decide_eq_true_eq] at sameKey
      rw [keyed.eq_of_key otherMember member sameKey]

/-- In a keyed table, a row is the only one with its key. -/
theorem Keyed.filter_key [DecidableEq κ] (keyed : Keyed key rows) {row : ρ} (member : row ∈ rows) :
    rows.filter (fun candidate => key candidate = key row) = [row] := by
  induction rows with
  | nil => cases member
  | cons head tail inductionHypothesis =>
      obtain ⟨fresh, rest⟩ := List.nodup_cons.mp keyed
      rcases List.mem_cons.mp member with rfl | inTail
      · have others : tail.filter (fun candidate => key candidate = key row) = [] := by
          rw [List.filter_eq_nil_iff]
          intro other otherMember
          have different : key other ≠ key row := by
            intro same
            exact fresh (same ▸ List.mem_map_of_mem otherMember)
          simpa using different
        rw [List.filter_cons_of_pos (by simp), others]
      · have different : key head ≠ key row := by
          intro same
          exact fresh (same ▸ List.mem_map_of_mem inTail)
        rw [List.filter_cons_of_neg (by simpa using different)]
        exact inductionHypothesis rest inTail

end Keys

end AuthStartpack.Table
