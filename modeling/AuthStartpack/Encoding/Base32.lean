import Mathlib

/-!
Owns the Base32 text of a string of bytes: the bits in groups of five, the last
group filled up with zeros, and padding up to a multiple of eight characters.

The module names nothing of the modelled repository.
-/

namespace AuthStartpack

/-! ### Bits -/

/-- So many bits of a number, the highest first. -/
def toBits : ℕ → ℕ → List Bool
  | 0, _ => []
  | width + 1, number => toBits width (number / 2) ++ [decide (number % 2 = 1)]

/-- The number of some bits, the highest first. -/
def ofBits (bits : List Bool) : ℕ := bits.foldl (fun number bit => 2 * number + bit.toNat) 0

@[simp]
theorem length_toBits (width number : ℕ) : (toBits width number).length = width := by
  induction width generalizing number with
  | zero => rfl
  | succ width inductionHypothesis => simp [toBits, inductionHypothesis]

theorem ofBits_append_singleton (bits : List Bool) (bit : Bool) :
    ofBits (bits ++ [bit]) = 2 * ofBits bits + bit.toNat := by
  simp [ofBits]

theorem ofBits_toBits {width number : ℕ} (fits : number < 2 ^ width) :
    ofBits (toBits width number) = number := by
  induction width generalizing number with
  | zero =>
      have zero : number = 0 := by omega
      rw [zero]
      rfl
  | succ width inductionHypothesis =>
      have half : number / 2 < 2 ^ width := by
        rw [Nat.pow_succ] at fits
        omega
      rw [toBits, ofBits_append_singleton, inductionHypothesis half]
      rcases Nat.mod_two_eq_zero_or_one number with even | odd
      · simp only [even, Nat.zero_ne_one, decide_false, Bool.toNat_false]
        omega
      · simp only [odd, decide_true, Bool.toNat_true]
        omega

theorem toBits_ofBits (bits : List Bool) : toBits bits.length (ofBits bits) = bits := by
  induction bits using List.reverseRecOn with
  | nil => rfl
  | append_singleton bits bit inductionHypothesis =>
      have half : (2 * ofBits bits + bit.toNat) / 2 = ofBits bits := by
        cases bit <;> simp only [Bool.toNat_false, Bool.toNat_true] <;> omega
      have last : decide ((2 * ofBits bits + bit.toNat) % 2 = 1) = bit := by
        cases bit
        · apply decide_eq_false
          simp only [Bool.toNat_false]
          omega
        · apply decide_eq_true
          simp only [Bool.toNat_true]
          omega
      rw [List.length_append, List.length_singleton, ofBits_append_singleton, toBits, half, last,
        inductionHypothesis]

theorem ofBits_lt (bits : List Bool) : ofBits bits < 2 ^ bits.length := by
  induction bits using List.reverseRecOn with
  | nil => exact Nat.one_pos
  | append_singleton bits bit inductionHypothesis =>
      have small : bit.toNat ≤ 1 := Bool.toNat_le bit
      rw [ofBits_append_singleton, List.length_append, List.length_singleton, Nat.pow_succ]
      omega

/-- The bits of some bytes. -/
def bitsOf (bytes : List UInt8) : List Bool := bytes.flatMap fun byte => toBits 8 byte.toNat

/-! ### Groups of eight -/

/-- The bytes that some bits make up. Bits that make up no byte are left over. -/
def bytesOf : List Bool → List UInt8
  | b7 :: b6 :: b5 :: b4 :: b3 :: b2 :: b1 :: b0 :: rest =>
      UInt8.ofNat (ofBits [b7, b6, b5, b4, b3, b2, b1, b0]) :: bytesOf rest
  | _ => []

theorem bytesOf_short {bits : List Bool} (short : bits.length < 8) : bytesOf bits = [] := by
  match bits with
  | [] | [_] | [_, _] | [_, _, _] | [_, _, _, _] | [_, _, _, _, _] | [_, _, _, _, _, _]
  | [_, _, _, _, _, _, _] => rfl
  | _ :: _ :: _ :: _ :: _ :: _ :: _ :: _ :: _ =>
      simp only [List.length_cons] at short
      omega

theorem bytesOf_append {bits : List Bool} (full : bits.length = 8) (rest : List Bool) :
    bytesOf (bits ++ rest) = UInt8.ofNat (ofBits bits) :: bytesOf rest := by
  match bits, full with
  | [_, _, _, _, _, _, _, _], _ => rfl

/-- Bytes are read from their bits, whatever is left over. -/
theorem bytesOf_bitsOf (bytes : List UInt8) {rest : List Bool} (short : rest.length < 8) :
    bytesOf (bitsOf bytes ++ rest) = bytes := by
  induction bytes with
  | nil => exact bytesOf_short short
  | cons byte bytes inductionHypothesis =>
      have eight : (toBits 8 byte.toNat).length = 8 := length_toBits 8 _
      have value : ofBits (toBits 8 byte.toNat) = byte.toNat := ofBits_toBits byte.toNat_lt
      rw [bitsOf, List.flatMap_cons, List.append_assoc, bytesOf_append eight, value,
        UInt8.ofNat_toNat]
      exact congrArg _ inductionHypothesis

/-! ### Groups of five -/

/-- The bits in groups of five, the last one filled up. -/
def quintets : List Bool → List (List Bool)
  | [] => []
  | b4 :: b3 :: b2 :: b1 :: b0 :: rest => [b4, b3, b2, b1, b0] :: quintets rest
  | short => [short ++ List.replicate (5 - short.length) false]

theorem quintets_short {short : List Bool} (shown : short ≠ [])
    (few : ∀ b4 b3 b2 b1 b0 rest, short ≠ b4 :: b3 :: b2 :: b1 :: b0 :: rest) :
    quintets short = [short ++ List.replicate (5 - short.length) false] := by
  match short with
  | [] => exact absurd rfl shown
  | [_] | [_, _] | [_, _, _] | [_, _, _, _] => rfl
  | b4 :: b3 :: b2 :: b1 :: b0 :: rest => exact absurd rfl (few b4 b3 b2 b1 b0 rest)

theorem length_lt_five {short : List Bool}
    (few : ∀ b4 b3 b2 b1 b0 rest, short ≠ b4 :: b3 :: b2 :: b1 :: b0 :: rest) :
      short.length < 5 := by
  match short with
  | [] | [_] | [_, _] | [_, _, _] | [_, _, _, _] => simp
  | b4 :: b3 :: b2 :: b1 :: b0 :: rest => exact absurd rfl (few b4 b3 b2 b1 b0 rest)

theorem length_of_mem_quintets {bits group : List Bool} (member : group ∈ quintets bits) :
    group.length = 5 := by
  induction bits using quintets.induct with
  | case1 => cases member
  | case2 b4 b3 b2 b1 b0 rest inductionHypothesis =>
      rcases List.mem_cons.mp member with rfl | inRest
      · rfl
      · exact inductionHypothesis inRest
  | case3 short shown few =>
      rw [quintets_short shown few] at member
      cases List.mem_singleton.mp member
      have length : short.length < 5 := length_lt_five few
      rw [List.length_append, List.length_replicate]
      omega

/-- The groups are the bits, and less than five zeros. -/
theorem flatten_quintets (bits : List Bool) :
    ∃ rest : List Bool, (quintets bits).flatten = bits ++ rest ∧ rest.length < 5 := by
  induction bits using quintets.induct with
  | case1 => exact ⟨[], rfl, by decide⟩
  | case2 b4 b3 b2 b1 b0 bits inductionHypothesis =>
      obtain ⟨rest, same, short⟩ := inductionHypothesis
      refine ⟨rest, ?_, short⟩
      rw [quintets, List.flatten_cons, same]
      rfl
  | case3 short shown few =>
      refine ⟨List.replicate (5 - short.length) false, ?_, ?_⟩
      · rw [quintets_short shown few, List.flatten_singleton]
      · have length := List.length_pos_iff.mpr shown
        rw [List.length_replicate]
        omega

namespace Base32

def alphabet : List Char := "ABCDEFGHIJKLMNOPQRSTUVWXYZ234567".toList

def digit (group : List Bool) : Char := alphabet.getD (ofBits group) 'A'

/-- The text without padding. -/
def encodeChars (bytes : List UInt8) : List Char := (quintets (bitsOf bytes)).map digit

/-- The padding after a text of so many characters. -/
def padding (length : ℕ) : List Char := List.replicate ((8 - length % 8) % 8) '='

theorem digit_mem {group : List Bool} (five : group.length = 5) : digit group ∈ alphabet := by
  have below : ofBits group < alphabet.length := by
    have bound := ofBits_lt group
    rw [five] at bound
    exact bound
  rw [digit, List.getD_eq_getElem _ _ below]
  exact List.getElem_mem below

/-- A digit stands in the alphabet where its bits say. -/
theorem idxOf?_digit {group : List Bool} (five : group.length = 5) :
    alphabet.idxOf? (digit group) = some (ofBits group) := by
  have below : ofBits group < 32 := by
    have bound := ofBits_lt group
    rw [five] at bound
    exact bound
  have all : ∀ value < 32, alphabet.idxOf? (alphabet.getD value 'A') = some value := by decide
  exact all _ below

theorem mem_alphabet {bytes : List UInt8} {character : Char}
    (member : character ∈ encodeChars bytes) :
    character ∈ alphabet := by
  obtain ⟨group, inside, rfl⟩ := List.mem_map.mp member
  exact digit_mem (length_of_mem_quintets inside)

/-- The bits of the digits are the bits of the bytes, and less than five zeros. -/
theorem bytesOf_flatten_quintets (bytes : List UInt8) :
    bytesOf (quintets (bitsOf bytes)).flatten = bytes := by
  obtain ⟨rest, same, short⟩ := flatten_quintets (bitsOf bytes)
  rw [same]
  exact bytesOf_bitsOf bytes (by omega)

end Base32

end AuthStartpack
