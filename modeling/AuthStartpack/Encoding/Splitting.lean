import Mathlib.Data.List.SplitOn
import Mathlib.Data.List.TakeWhile

/-! Owns `string.Split` at a character. -/

namespace AuthStartpack

/-- `string.Split`, at every separator. -/
def split (separator : Char) (text : String) : List String :=
  (text.toList.splitOn separator).map String.ofList

/-- `string.Split` into at most two parts: the one before the first separator, and what follows. -/
def splitInTwo (separator : Char) (text : String) : String × Option String :=
  match text.toList.dropWhile (· ≠ separator) with
  | [] => (text, none)
  | _ :: rest => (String.ofList (text.toList.takeWhile (· ≠ separator)), some (String.ofList rest))

/-- `string.Split` into at most so many parts. -/
def splitAtMost (separator : Char) : ℕ → String → List String
  | 0, _ => []
  | 1, text => [text]
  | count + 2, text =>
      match splitInTwo separator text with
      | (first, none) => [first]
      | (first, some rest) => first :: splitAtMost separator (count + 1) rest

section Splitting

variable {separator : Char} {first : String}

theorem splitInTwo_of_free (free : separator ∉ first.toList) :
    splitInTwo separator first = (first, none) := by
  have passes : ∀ character ∈ first.toList, decide (character ≠ separator) = true := by
    intro character member
    exact decide_eq_true fun same => free (same ▸ member)
  rw [splitInTwo, List.dropWhile_eq_nil_iff.mpr passes]

theorem splitInTwo_append (free : separator ∉ first.toList) (rest : String) :
    splitInTwo separator (first ++ String.singleton separator ++ rest) = (first, some rest) := by
  have text : (first ++ String.singleton separator ++ rest).toList =
      first.toList ++ separator :: rest.toList := by simp
  have passes : ∀ character ∈ first.toList, decide (character ≠ separator) = true := by
    intro character member
    exact decide_eq_true fun same => free (same ▸ member)
  have back : (first.toList ++ separator :: rest.toList).dropWhile (· ≠ separator) =
      separator :: rest.toList := by
    rw [List.dropWhile_append_of_pos passes]
    simp
  have front : (first.toList ++ separator :: rest.toList).takeWhile (· ≠ separator) =
      first.toList := by
    rw [List.takeWhile_append_of_pos passes]
    simp
  rw [splitInTwo, text, back, front]
  show (String.ofList first.toList, some (String.ofList rest.toList)) = (first, some rest)
  rw [String.ofList_toList, String.ofList_toList]

/-- A part that ends at the separator is split off. -/
theorem splitAtMost_append (free : separator ∉ first.toList) (count : ℕ) (rest : String) :
    splitAtMost separator (count + 2) (first ++ String.singleton separator ++ rest) =
      first :: splitAtMost separator (count + 1) rest := by
  rw [splitAtMost, splitInTwo_append free]

theorem split_of_free (free : separator ∉ first.toList) : split separator first = [first] := by
  rw [split, List.splitOn_eq_singleton free, List.map_singleton, String.ofList_toList]

theorem split_append (free : separator ∉ first.toList) (rest : String) :
    split separator (first ++ String.singleton separator ++ rest) =
      first :: split separator rest := by
  have text : (first ++ String.singleton separator ++ rest).toList =
      first.toList ++ separator :: rest.toList := by simp
  rw [split, text, List.splitOn_append_cons_self_of_not_mem free, List.map_cons,
    String.ofList_toList]
  rfl

/-- A text of two parts is made of them. -/
theorem eq_append_of_split {text second : String} (parts : split separator text = [first, second]) :
    text = first ++ String.singleton separator ++ second := by
  have joined : [separator].intercalate (text.toList.splitOn separator) = text.toList :=
    List.intercalate_splitOn separator
  unfold split at parts
  generalize text.toList.splitOn separator = pieces at parts joined
  obtain ⟨left, rest, rfl, rfl, tail⟩ := List.map_eq_cons_iff.mp parts
  obtain ⟨right, others, rfl, rfl, none_⟩ := List.map_eq_cons_iff.mp tail
  cases List.map_eq_nil_iff.mp none_
  apply String.toList_injective
  rw [← joined]
  simp

end Splitting

end AuthStartpack
