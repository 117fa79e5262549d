import Mathlib

/-! Owns `int.TryParse` of decimal numbers, under the invariant culture. -/

namespace AuthStartpack

/-- The white space that may stand around a number. -/
def isNumberWhite (character : Char) : Bool :=
  character.toNat = 0x20 || (9 ≤ character.toNat && character.toNat ≤ 13)

/-- Whether there is a minus sign, and what follows the sign. -/
def readSign : List Char → Bool × List Char
  | '-' :: rest => (true, rest)
  | '+' :: rest => (false, rest)
  | rest => (false, rest)

/-- `int.TryParse`: null characters may follow the white space after the digits. -/
def tryParseInt32 (text : String) : Option ℤ :=
  let (negative, unsigned) := readSign (text.toList.dropWhile isNumberWhite)
  let digits := unsigned.takeWhile Char.isDigit
  let rest := (unsigned.dropWhile Char.isDigit).dropWhile isNumberWhite
  let magnitude : ℤ := Nat.ofDigitChars 10 digits 0
  let value := if negative then -magnitude else magnitude
  if digits ≠ [] ∧ rest.all (·.toNat = 0) ∧ -2 ^ 31 ≤ value ∧ value < 2 ^ 31 then
    some value
  else none

section Printing

variable {character : Char}

theorem not_isNumberWhite_of_isDigit (digit : character.isDigit = true) :
    isNumberWhite character = false := by
  have low : 48 ≤ character.toNat := by
    simp only [Char.isDigit, Bool.and_eq_true, decide_eq_true_eq] at digit
    exact digit.1
  apply Bool.eq_false_iff.mpr
  intro white
  simp only [isNumberWhite, Bool.or_eq_true, Bool.and_eq_true, decide_eq_true_eq] at white
  omega

theorem readSign_of_isDigit {rest : List Char} (digit : character.isDigit = true) :
    readSign (character :: rest) = (false, character :: rest) := by
  unfold readSign
  split
  · rename_i equal
    cases equal
    cases digit
  · rename_i equal
    cases equal
    cases digit
  · rfl

/-- A number is read from its decimal digits. -/
theorem tryParseInt32_toString {number : ℕ} (fits : number < 2 ^ 31) :
    tryParseInt32 (toString number) = some (number : ℤ) := by
  have text : (toString number).toList = Nat.toDigits 10 number := Nat.toList_repr
  have digits : ∀ character ∈ Nat.toDigits 10 number, character.isDigit = true :=
    fun _ member => Nat.isDigit_of_mem_toDigits (by decide) (by decide) member
  have shown : Nat.toDigits 10 number ≠ [] := Nat.toDigits_ne_nil
  have value : Nat.ofDigitChars 10 (Nat.toDigits 10 number) 0 = number :=
    Nat.ofDigitChars_toDigits (by decide) (by decide)
  have all : (Nat.toDigits 10 number).takeWhile Char.isDigit = Nat.toDigits 10 number :=
    List.takeWhile_eq_self_iff.mpr digits
  have none_ : (Nat.toDigits 10 number).dropWhile Char.isDigit = [] :=
    List.dropWhile_eq_nil_iff.mpr digits
  have start : readSign ((Nat.toDigits 10 number).dropWhile isNumberWhite) =
      (false, Nat.toDigits 10 number) := by
    cases parts : Nat.toDigits 10 number with
    | nil => exact absurd parts shown
    | cons character rest =>
        have digit := digits character (parts ▸ List.mem_cons_self)
        rw [List.dropWhile_cons, not_isNumberWhite_of_isDigit digit]
        exact readSign_of_isDigit digit
  have low : -2 ^ 31 ≤ (number : ℤ) := by omega
  have high : (number : ℤ) < 2 ^ 31 := by omega
  rw [tryParseInt32, text, start]
  simp only [all, none_, value, Bool.false_eq_true, if_false]
  exact if_pos ⟨shown, by simp, low, high⟩

end Printing

end AuthStartpack
