import Mathlib.Data.List.GetD

/-!
Owns the base64url text of a string of bytes, without padding: three bytes make
four characters of the URL-safe alphabet, and one or two bytes at the end make
two or three.

The module names nothing of the modelled repository.
-/

namespace AuthStartpack.Base64Url

def alphabet : List Char :=
  "ABCDEFGHIJKLMNOPQRSTUVWXYZabcdefghijklmnopqrstuvwxyz0123456789-_".toList

/-- The character of the last six bits. -/
def digit (value : ℕ) : Char := alphabet.getD (value % 64) 'A'

def encodeChars : List UInt8 → List Char
  | [] => []
  | [first] =>
      let value := first.toNat * 16
      [digit (value / 64), digit value]
  | [first, second] =>
      let value := (first.toNat * 256 + second.toNat) * 4
      [digit (value / 4096), digit (value / 64), digit value]
  | first :: second :: third :: rest =>
      let value := first.toNat * 65536 + second.toNat * 256 + third.toNat
      digit (value / 262144) :: digit (value / 4096) :: digit (value / 64) :: digit value ::
        encodeChars rest

def encode (bytes : List UInt8) : String := String.ofList (encodeChars bytes)

@[simp]
theorem toList_encode (bytes : List UInt8) : (encode bytes).toList = encodeChars bytes :=
  String.toList_ofList

theorem digit_mem (value : ℕ) : digit value ∈ alphabet := by
  have length : alphabet.length = 64 := by decide
  have below : value % 64 < alphabet.length := by
    rw [length]
    exact Nat.mod_lt _ (by decide)
  unfold digit
  rw [List.getD_eq_getElem _ _ below]
  exact List.getElem_mem below

/-- Every character is one of the alphabet. -/
theorem mem_alphabet {bytes : List UInt8} {character : Char}
    (member : character ∈ encodeChars bytes) : character ∈ alphabet := by
  induction bytes using encodeChars.induct with
  | case1 => cases member
  | case2 first =>
      simp only [encodeChars, List.mem_cons, List.not_mem_nil, or_false] at member
      rcases member with rfl | rfl <;> exact digit_mem _
  | case3 first second =>
      simp only [encodeChars, List.mem_cons, List.not_mem_nil, or_false] at member
      rcases member with rfl | rfl | rfl <;> exact digit_mem _
  | case4 first second third rest inductionHypothesis =>
      simp only [encodeChars, List.mem_cons] at member
      rcases member with rfl | rfl | rfl | rfl | member
      · exact digit_mem _
      · exact digit_mem _
      · exact digit_mem _
      · exact digit_mem _
      · exact inductionHypothesis member

/-- A character outside the alphabet separates encoded texts. -/
theorem not_mem_encodeChars {character : Char} (outside : character ∉ alphabet)
    (bytes : List UInt8) : character ∉ encodeChars bytes :=
  fun member => outside (mem_alphabet member)

theorem encodeChars_ne_nil {bytes : List UInt8} (nonempty : bytes ≠ []) :
    encodeChars bytes ≠ [] := by
  cases bytes using encodeChars.induct with
  | case1 => exact absurd rfl nonempty
  | case2 => exact List.cons_ne_nil _ _
  | case3 => exact List.cons_ne_nil _ _
  | case4 => exact List.cons_ne_nil _ _

/-! ### Decoding -/

/-- The six bits that a character stands for. -/
def value (character : Char) : Option ℕ :=
  if character ∈ alphabet then some (alphabet.idxOf character) else none

theorem value_digit (bits : ℕ) : value (digit bits) = some (bits % 64) := by
  have table : ∀ index < 64, alphabet.idxOf (alphabet.getD index 'A') = index := by decide
  unfold value
  rw [if_pos (digit_mem bits)]
  exact congrArg some (table _ (Nat.mod_lt _ (by decide)))

def byte (bits : ℕ) : UInt8 := UInt8.ofNat bits

/-- The bytes of a text without padding whose characters all are in the alphabet. -/
def decodeChars : List Char → Option (List UInt8)
  | [] => some []
  | [_] => none
  | [first, second] => do
      let bits := (← value first) * 64 + (← value second)
      return [byte (bits / 16)]
  | [first, second, third] => do
      let bits := ((← value first) * 64 + (← value second)) * 64 + (← value third)
      return [byte (bits / 1024), byte (bits / 4)]
  | first :: second :: third :: fourth :: rest => do
      let bits :=
        (((← value first) * 64 + (← value second)) * 64 + (← value third)) * 64 + (← value fourth)
      let bytes ← decodeChars rest
      return byte (bits / 65536) :: byte (bits / 256) :: byte bits :: bytes

theorem byte_eq (original : UInt8) {bits : ℕ} (same : bits % 256 = original.toNat) :
    byte bits = original := by
  apply UInt8.toNat_inj.mp
  rw [← same]
  exact UInt8.toNat_ofNat'

theorem decodeChars_encodeChars (bytes : List UInt8) :
    decodeChars (encodeChars bytes) = some bytes := by
  induction bytes using encodeChars.induct with
  | case1 => rfl
  | case2 first =>
      have := first.toNat_lt
      simp only [encodeChars, decodeChars, value_digit, Option.bind_eq_bind, Option.bind_some,
        Option.pure_def]
      rw [byte_eq first (by omega)]
  | case3 first second =>
      have := first.toNat_lt
      have := second.toNat_lt
      simp only [encodeChars, decodeChars, value_digit, Option.bind_eq_bind, Option.bind_some,
        Option.pure_def]
      rw [byte_eq first (by omega), byte_eq second (by omega)]
  | case4 first second third rest inductionHypothesis =>
      have := first.toNat_lt
      have := second.toNat_lt
      have := third.toNat_lt
      simp only [encodeChars, decodeChars, value_digit, Option.bind_eq_bind, Option.bind_some,
        Option.pure_def, inductionHypothesis]
      rw [byte_eq first (by omega), byte_eq second (by omega), byte_eq third (by omega)]

def decode (text : String) : Option (List UInt8) := decodeChars text.toList

theorem decode_encode (bytes : List UInt8) : decode (encode bytes) = some bytes := by
  unfold decode
  rw [toList_encode, decodeChars_encodeChars]

end AuthStartpack.Base64Url
