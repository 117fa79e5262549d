import AuthStartpack.Encoding.Casing

/-!
Owns `SensitiveFieldNames`: which names of fields are those of secrets and of
email addresses, and how an address is masked.
-/

namespace AuthStartpack

namespace SensitiveFieldNames

def redactedValue : String := "[redacted]"

def secretFragments : List String :=
  ["password", "token", "secret", "hash", "apikey", "credential", "cookie", "authorization",
   "recoverycode", "privatekey", "signature"]

def emailFragments : List String := ["email"]

section Names

variable (casing : Casing)

def «matches» (fieldName : String) (fragments : List String) : Bool :=
  fragments.any (casing.contains fieldName)

def isSecret (fieldName : String) : Bool := «matches» casing fieldName secretFragments

def isEmail (fieldName : String) : Bool := «matches» casing fieldName emailFragments

end Names

/-- The first of the code units of a character that is written for itself: half a surrogate pair
is written as the replacement character. -/
def firstUnit (character : Char) : Char :=
  if character.toNat < 0x10000 then character else '\uFFFD'

/-- The character that stays in front of the mask, where a local part of one code unit is hidden. -/
def leadingCharacter : List Char → Char
  | [] => '*'
  | [single] => if single.toNat < 0x10000 then '*' else '\uFFFD'
  | first :: _ => firstUnit first

def maskEmail (value : String) : String :=
  let localPart := value.toList.takeWhile (· ≠ '@')
  let domain := value.toList.dropWhile (· ≠ '@')
  -- No `@`, one at the start, or the first one at the end.
  if localPart = [] ∨ domain.length ≤ 1 then redactedValue
  else String.ofList (leadingCharacter localPart :: '*' :: '*' :: '*' :: domain)

/-! ### Masking twice -/

theorem firstUnit_ne_at {character : Char} (differs : character ≠ '@') :
    firstUnit character ≠ '@' := by
  unfold firstUnit
  split
  · exact differs
  · decide

theorem leadingCharacter_ne_at {localPart : List Char}
    (free : ∀ character ∈ localPart, character ≠ '@') :
    leadingCharacter localPart ≠ '@' := by
  match localPart with
  | [] => decide
  | [single] =>
      rw [leadingCharacter]
      split <;> decide
  | first :: second :: rest =>
      rw [leadingCharacter]
      · exact firstUnit_ne_at (free first List.mem_cons_self)
      · simp

/-- What stays in front of the mask is one code unit. -/
theorem firstUnit_leadingCharacter (localPart : List Char) :
    firstUnit (leadingCharacter localPart) = leadingCharacter localPart := by
  have unit : ∀ character, firstUnit (firstUnit character) = firstUnit character := by
    intro character
    by_cases small : character.toNat < 0x10000
    · simp [firstUnit, small]
    · simp only [firstUnit, if_neg small]
      decide
  match localPart with
  | [] => decide
  | [single] =>
      rw [leadingCharacter]
      split <;> decide
  | first :: second :: rest =>
      rw [leadingCharacter]
      · exact unit first
      · simp

theorem maskEmail_redactedValue : maskEmail redactedValue = redactedValue := by decide +kernel

/-- The mask of an address, with its parts. -/
theorem maskEmail_ofList {localPart domain : List Char}
    (free : ∀ character ∈ localPart, character ≠ '@') (shown : localPart ≠ [])
    (long : domain ≠ []) :
    maskEmail (String.ofList (localPart ++ '@' :: domain)) =
      String.ofList (leadingCharacter localPart :: '*' :: '*' :: '*' :: '@' :: domain) := by
  have front : (localPart ++ '@' :: domain).takeWhile (· ≠ '@') = localPart := by
    rw [List.takeWhile_append_of_pos (by simpa using free)]
    simp
  have back : (localPart ++ '@' :: domain).dropWhile (· ≠ '@') = '@' :: domain := by
    rw [List.dropWhile_append_of_pos (by simpa using free)]
    simp
  have shaped : ¬ (localPart = [] ∨ ('@' :: domain).length ≤ 1) := by
    simp [shown, long]
  rw [maskEmail, String.toList_ofList, front, back]
  exact if_neg shaped

/-- A text that is masked has a local part and a domain. -/
theorem address_of_shaped {value : String}
    (shaped : ¬ (value.toList.takeWhile (· ≠ '@') = [] ∨
      (value.toList.dropWhile (· ≠ '@')).length ≤ 1)) :
    ∃ localPart domain, (∀ character ∈ localPart, character ≠ '@') ∧ localPart ≠ [] ∧
      domain ≠ [] ∧ value = String.ofList (localPart ++ '@' :: domain) := by
  rw [not_or] at shaped
  obtain ⟨shown, long⟩ := shaped
  cases split : value.toList.dropWhile (· ≠ '@') with
  | nil =>
      rw [split] at long
      exact absurd (Nat.zero_le 1) long
  | cons separator domain =>
      have separates : separator = '@' := by
        have ends := List.head?_dropWhile_not (· ≠ '@') value.toList
        rw [split] at ends
        simpa using ends
      subst separates
      refine ⟨value.toList.takeWhile (· ≠ '@'), domain, ?_, shown, ?_, ?_⟩
      · intro character member
        simpa using List.mem_takeWhile_imp member
      · intro empty
        rw [split, empty] at long
        exact long (Nat.le_refl 1)
      · rw [← split, List.takeWhile_append_dropWhile, String.ofList_toList]

/-- A mask is its own mask. -/
theorem maskEmail_maskEmail (value : String) : maskEmail (maskEmail value) = maskEmail value := by
  by_cases shapeless : value.toList.takeWhile (· ≠ '@') = [] ∨
      (value.toList.dropWhile (· ≠ '@')).length ≤ 1
  case pos =>
    have redacted : maskEmail value = redactedValue := by
      rw [maskEmail]
      exact if_pos shapeless
    rw [redacted]
    exact maskEmail_redactedValue
  case neg =>
    obtain ⟨localPart, domain, free, shown, long, rfl⟩ := address_of_shaped shapeless
    rw [maskEmail_ofList free shown long]
    have maskFree : ∀ character ∈ [leadingCharacter localPart, '*', '*', '*'], character ≠ '@' := by
      simp [leadingCharacter_ne_at free]
    have again := maskEmail_ofList maskFree (List.cons_ne_nil _ _) long
    rw [leadingCharacter, firstUnit_leadingCharacter] at again
    · exact again
    · simp

end SensitiveFieldNames

end AuthStartpack
