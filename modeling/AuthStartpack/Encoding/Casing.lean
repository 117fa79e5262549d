import Mathlib.Data.Bool.AllAny
import Mathlib.Data.List.Infix
import Mathlib.Data.List.TakeWhile

/-!
Owns comparisons that ignore the case of letters. The casing of single characters
belongs to the runtime and is a parameter.
-/

namespace AuthStartpack

/-- The invariant casing of single characters. -/
structure Casing where
  toUpper : Char → Char
  toLower : Char → Char

/-- The casing of the ASCII letters. -/
def Casing.ascii : Casing where
  toUpper := Char.toUpper
  toLower := Char.toLower

section Comparison

variable (casing : Casing)

/-- `StringComparer.OrdinalIgnoreCase` -/
def Casing.equals (left right : String) : Bool :=
  left.toList.map casing.toUpper = right.toList.map casing.toUpper

/-- `string.Contains` with `StringComparison.OrdinalIgnoreCase` -/
def Casing.contains (text part : String) : Bool :=
  part.toList.map casing.toUpper <:+: text.toList.map casing.toUpper

end Comparison

/-- What holds of the small letters and of characters without case holds of all. -/
theorem toUpper_cases (holds : Char → Char → Prop) (same : ∀ character, holds character character)
    (small : ∀ code ∈ List.range' 97 26, holds (Char.ofNat code) (Char.ofNat code).toUpper)
    (character : Char) : holds character character.toUpper := by
  by_cases lower : 97 ≤ character.toNat ∧ character.toNat ≤ 122
  case neg =>
    have unchanged : character.toUpper = character := by
      unfold Char.toUpper
      exact dif_neg lower
    rw [unchanged]
    exact same character
  case pos =>
    have listed : character.toNat ∈ List.range' 97 26 := by
      apply List.mem_range'_1.mpr
      omega
    have letter := small character.toNat listed
    rw [Char.ofNat_toNat] at letter
    exact letter

end AuthStartpack
