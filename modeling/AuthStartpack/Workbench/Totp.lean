import AuthStartpack.Encoding.Base32
import AuthStartpack.Encoding.Casing
import AuthStartpack.Encoding.OneTimePassword
import Mathlib.Data.Rat.Floor

/-!
Owns the one-time passwords that the workbench computes in the browser, and that
they are those of RFC 6238. Strings of bits are lists, numbers below 2 ^ 53 are
exact, and HMAC is a parameter.
-/

namespace AuthStartpack.Workbench

/-- `toUpperCase` of a character, of which the ASCII characters are modelled. -/
structure UpperCasing where
  toUpperCase : Char → List Char
  ascii : ∀ character, character.toNat < 128 → toUpperCase character = [character.toUpper]

/-- The way in which `computeTotp` fails. -/
inductive TotpError
  | invalidBase32
  /-- The browser refuses to import a key of no bytes. -/
  | emptyKey
deriving DecidableEq, Repr

/-- `\s` -/
def isSpace (character : Char) : Bool :=
  let code := character.toNat
  (9 ≤ code && code ≤ 13) || (0x2000 ≤ code && code ≤ 0x200A) ||
    [0x20, 0xA0, 0x1680, 0x2028, 0x2029, 0x202F, 0x205F, 0x3000, 0xFEFF].contains code

def alphabet : List Char := "ABCDEFGHIJKLMNOPQRSTUVWXYZ234567".toList

/-- The text in capital letters, without padding at its end and without spaces. -/
def clean (casing : UpperCasing) (value : String) : List Char :=
  let upper := value.toList.flatMap casing.toUpperCase
  (upper.reverse.dropWhile (· = '=')).reverse.filter fun character => !isSpace character

def decodeBase32 (casing : UpperCasing) (value : String) : Except TotpError (List UInt8) := do
  let bits ← (clean casing value).foldlM (fun bits character =>
    match alphabet.idxOf? character with
    | none => throw .invalidBase32
    | some index => pure (bits ++ toBits 5 index)) []
  return bytesOf bits

/-- `remaining & 0xff`, stored as a byte. -/
def lowByte (remaining : ℕ) : UInt8 := UInt8.ofNat (Int32.ofNat remaining &&& 0xff).toInt.toNat

/-- The bytes up to this one, which the loop fills from the last one on. -/
def counterBytes : ℕ → ℕ → List UInt8
  | 0, _ => []
  | count + 1, remaining => counterBytes count (remaining / 256) ++ [lowByte remaining]

/-- The truncation of a digest in 32-bit arithmetic. -/
def binary (digest : List UInt8) : Int32 :=
  let byte (position : ℕ) : Int32 := Int32.ofNat (digest.getD position 0).toNat
  let offset := (digest.getLast?.getD 0 &&& 0x0f).toNat
  (byte offset &&& 0x7f) <<< 24 ||| byte (offset + 1) <<< 16 ||| byte (offset + 2) <<< 8 |||
    byte (offset + 3)

/-- `padStart` -/
def padStart (width : ℕ) (fill : Char) (text : String) : String :=
  String.ofList (List.replicate (width - text.toList.length) fill ++ text.toList)

def computeTotp (casing : UpperCasing) (hmac : List UInt8 → List UInt8 → Vector UInt8 20)
    (secret : String) (now : ℕ) : Except TotpError String := do
  let keyBytes ← decodeBase32 casing secret
  let counter := ⌊(now : ℚ) / 1000 / 30⌋.toNat
  if keyBytes = [] then
    throw .emptyKey
  let digest := (hmac keyBytes (counterBytes 8 counter)).toList
  return padStart 6 '0' (toString ((binary digest).toInt.tmod 1000000))

/-! ### The key -/

/-- A Base32 text of these bytes, with or without its padding, and in any case. -/
def IsBase32 (bytes : List UInt8) (text : String) : Prop :=
  ∃ count, text.toList.map Char.toUpper = Base32.encodeChars bytes ++ List.replicate count '=' ∧
    (count = 0 ∨ List.replicate count '=' = Base32.padding (Base32.encodeChars bytes).length)

section Key

variable {bytes : List UInt8} {text : String}

theorem ascii_of_toUpper {character : Char} (ascii : character.toUpper.toNat < 128) :
    character.toNat < 128 := by
  revert ascii
  apply toUpper_cases fun before after => after.toNat < 128 → before.toNat < 128
  · exact fun _ => id
  · decide

/-- The texts are ASCII. -/
theorem flatMap_toUpperCase (casing : UpperCasing)
    (ascii : ∀ character ∈ text.toList.map Char.toUpper, character.toNat < 128) :
    text.toList.flatMap casing.toUpperCase = text.toList.map Char.toUpper := by
  generalize text.toList = characters at ascii ⊢
  induction characters with
  | nil => rfl
  | cons character rest inductionHypothesis =>
      have first : character.toUpper.toNat < 128 := ascii _ List.mem_cons_self
      rw [List.flatMap_cons, casing.ascii character (ascii_of_toUpper first),
        inductionHypothesis fun other member => ascii other (List.mem_cons_of_mem _ member)]
      rfl

theorem dropWhile_padding {characters : List Char} (free : '=' ∉ characters) (count : ℕ) :
    ((characters ++ List.replicate count '=').reverse.dropWhile (· = '=')).reverse =
      characters := by
  have stays : characters.reverse.dropWhile (· = '=') = characters.reverse := by
    apply List.dropWhile_eq_self_iff.mpr
    intro shown
    apply Bool.eq_false_iff.mp
    apply decide_eq_false
    intro same
    exact free (List.mem_reverse.mp (same ▸ List.getElem_mem shown))
  rw [List.reverse_append, List.reverse_replicate, List.dropWhile_append_of_pos (by simp), stays,
    List.reverse_reverse]

theorem clean_eq (casing : UpperCasing) (isBase32 : IsBase32 bytes text) :
    clean casing text = Base32.encodeChars bytes := by
  obtain ⟨count, upper, -⟩ := isBase32
  have ascii : ∀ character ∈ '=' :: Base32.alphabet, character.toNat < 128 :=
    List.all_iff_forall_prop.mp (by decide)
  have dark : ∀ character ∈ Base32.alphabet, isSpace character = false :=
    List.all_iff_forall_prop.mp (by decide)
  have free : '=' ∉ Base32.encodeChars bytes := by
    intro member
    exact absurd (Base32.mem_alphabet member) (by decide)
  have same : text.toList.flatMap casing.toUpperCase = text.toList.map Char.toUpper := by
    apply flatMap_toUpperCase
    intro character member
    rw [upper] at member
    apply ascii
    rcases List.mem_append.mp member with digit | pad
    · exact List.mem_cons_of_mem _ (Base32.mem_alphabet digit)
    · rw [List.eq_of_mem_replicate pad]
      exact List.mem_cons_self
  rw [clean, same, upper, dropWhile_padding free, List.filter_eq_self]
  intro character member
  rw [dark character (Base32.mem_alphabet member)]
  rfl

theorem foldlM_digits (groups : List (List Bool)) (five : ∀ group ∈ groups, group.length = 5)
    (start : List Bool) :
    (groups.map Base32.digit).foldlM (fun bits character =>
      match alphabet.idxOf? character with
      | none => throw .invalidBase32
      | some index => pure (bits ++ toBits 5 index)) start =
        (.ok (start ++ groups.flatten) : Except TotpError (List Bool)) := by
  induction groups generalizing start with
  | nil => simp [pure, Except.pure]
  | cons group rest inductionHypothesis =>
      have length : group.length = 5 := five group List.mem_cons_self
      have index : alphabet.idxOf? (Base32.digit group) = some (ofBits group) :=
        Base32.idxOf?_digit length
      have bits : toBits 5 (ofBits group) = group := by
        have back := toBits_ofBits group
        rw [length] at back
        exact back
      rw [List.map_cons, List.foldlM_cons, index]
      dsimp only
      rw [bits, pure_bind, inductionHypothesis fun other member =>
        five other (List.mem_cons_of_mem _ member),
        List.flatten_cons, List.append_assoc]

theorem decodeBase32_eq (casing : UpperCasing) (isBase32 : IsBase32 bytes text) :
    decodeBase32 casing text = .ok bytes := by
  have digits := foldlM_digits (quintets (bitsOf bytes))
    (fun _ member => length_of_mem_quintets member) []
  rw [decodeBase32, clean_eq casing isBase32, Base32.encodeChars, digits]
  show Except.ok (bytesOf ([] ++ (quintets (bitsOf bytes)).flatten)) = _
  rw [List.nil_append, Base32.bytesOf_flatten_quintets]

end Key

/-! ### 32-bit arithmetic -/

/-- Without the sign bit an integer is what its bits say. -/
theorem toInt_of_toNat {number : Int32} {value : ℕ} (bits : number.toBitVec.toNat = value)
    (small : value < 2 ^ 31) : number.toInt = value := by
  show number.toBitVec.toInt = value
  rw [BitVec.toInt_eq_toNat_of_lt (by omega), bits]

theorem toNat_of_byte (byte : UInt8) : (Int32.ofNat byte.toNat).toBitVec.toNat = byte.toNat := by
  show byte.toNat % 2 ^ 32 = byte.toNat
  have bound := byte.toNat_lt
  omega

theorem lowByte_eq (remaining : ℕ) : lowByte remaining = UInt8.ofNat remaining := by
  have bits : (Int32.ofNat remaining &&& 0xff).toBitVec.toNat = remaining % 2 ^ 8 := by
    show remaining % 2 ^ 32 &&& 2 ^ 8 - 1 = remaining % 2 ^ 8
    rw [Nat.and_two_pow_sub_one_eq_mod]
    omega
  have value := toInt_of_toNat bits (by omega)
  rw [lowByte, value, Int.toNat_natCast, UInt8.ofNat_mod_size]

/-- The loop leaves the bytes of the counter, the highest first. -/
theorem counterBytes_eq (count counter : ℕ) :
    counterBytes count counter =
      (List.range count).map
        fun position => UInt8.ofNat (counter / 256 ^ (count - 1 - position)) := by
  induction count generalizing counter with
  | zero => rfl
  | succ count inductionHypothesis =>
      rw [counterBytes, inductionHypothesis, List.range_succ, List.map_append, List.map_singleton,
        lowByte_eq]
      have last : count + 1 - 1 - count = 0 := by omega
      rw [last, Nat.pow_zero, Nat.div_one]
      congr 1
      apply List.map_congr_left
      intro position member
      have below := List.mem_range.mp member
      have exponent : count + 1 - 1 - position = count - 1 - position + 1 := by omega
      rw [exponent, Nat.div_div_eq_div_mul, Nat.pow_succ, Nat.mul_comm 256]

/-- Four bytes, of which the first is less than 128, in one integer. -/
theorem toInt_join (first second third fourth : UInt8) :
    ((Int32.ofNat first.toNat &&& 0x7f) <<< 24 ||| Int32.ofNat second.toNat <<< 16 |||
      Int32.ofNat third.toNat <<< 8 ||| Int32.ofNat fourth.toNat).toInt =
      (first.toNat % 128 * 2 ^ 24 + second.toNat * 2 ^ 16 + third.toNat * 2 ^ 8 + fourth.toNat :
        ℕ) := by
  have secondBound := second.toNat_lt
  have thirdBound := third.toNat_lt
  have fourthBound := fourth.toNat_lt
  have firstBits : ((Int32.ofNat first.toNat &&& 0x7f) <<< 24).toBitVec.toNat =
      first.toNat % 128 * 2 ^ 24 := by
    have low : (Int32.ofNat first.toNat &&& 0x7f).toBitVec.toNat = first.toNat % 2 ^ 7 := by
      show first.toNat % 2 ^ 32 &&& 2 ^ 7 - 1 = first.toNat % 2 ^ 7
      rw [Nat.and_two_pow_sub_one_eq_mod]
      omega
    show ((Int32.ofNat first.toNat &&& 0x7f).toBitVec.toNat <<< 24) % 2 ^ 32 = _
    rw [low, Nat.shiftLeft_eq]
    omega
  have secondBits : (Int32.ofNat second.toNat <<< 16).toBitVec.toNat = second.toNat * 2 ^ 16 := by
    show ((Int32.ofNat second.toNat).toBitVec.toNat <<< 16) % 2 ^ 32 = _
    rw [toNat_of_byte, Nat.shiftLeft_eq]
    omega
  have thirdBits : (Int32.ofNat third.toNat <<< 8).toBitVec.toNat = third.toNat * 2 ^ 8 := by
    show ((Int32.ofNat third.toNat).toBitVec.toNat <<< 8) % 2 ^ 32 = _
    rw [toNat_of_byte, Nat.shiftLeft_eq]
    omega
  apply toInt_of_toNat
  · simp only [Int32.toBitVec_or, BitVec.toNat_or, firstBits, secondBits, thirdBits, toNat_of_byte]
    have low : third.toNat * 2 ^ 8 ||| fourth.toNat = third.toNat * 2 ^ 8 + fourth.toNat := by
      rw [Nat.mul_comm]
      exact (Nat.two_pow_add_eq_or_of_lt (by omega) _).symm
    have middle : second.toNat * 2 ^ 16 ||| (third.toNat * 2 ^ 8 + fourth.toNat) =
        second.toNat * 2 ^ 16 + (third.toNat * 2 ^ 8 + fourth.toNat) := by
      rw [Nat.mul_comm second.toNat]
      exact (Nat.two_pow_add_eq_or_of_lt (by omega) _).symm
    have high : first.toNat % 128 * 2 ^ 24 |||
        (second.toNat * 2 ^ 16 + (third.toNat * 2 ^ 8 + fourth.toNat)) =
          first.toNat % 128 * 2 ^ 24 +
            (second.toNat * 2 ^ 16 + (third.toNat * 2 ^ 8 + fourth.toNat)) := by
      rw [Nat.mul_comm (first.toNat % 128)]
      exact (Nat.two_pow_add_eq_or_of_lt (by omega) _).symm
    rw [Nat.or_assoc, Nat.or_assoc, low, middle, high]
    omega
  · omega

theorem binary_eq (digest : Vector UInt8 20) :
    (binary digest.toList).toInt = OneTimePassword.truncate digest := by
  have length : digest.toList.length = 20 := Vector.length_toList
  have last : digest.toList.getLast?.getD 0 = digest.toList.getD 19 0 := by
    rw [List.getLast?_eq_getElem?, length, List.getD_eq_getElem?_getD]
  have offset :
      (digest.toList.getLast?.getD 0 &&& 0x0f).toNat = (digest.toList.getD 19 0).toNat % 16 := by
    rw [last, UInt8.toNat_and]
    exact Nat.and_two_pow_sub_one_eq_mod _ 4
  rw [binary]
  dsimp only
  rw [offset, toInt_join]
  rfl

/-! ### The password -/

theorem counter_eq (now : ℕ) : ⌊(now : ℚ) / 1000 / 30⌋.toNat = now / 30000 := by
  have quotient : (now : ℚ) / 1000 / 30 = (now : ℚ) / (30000 : ℕ) := by
    rw [div_div]
    norm_num
  rw [quotient, Rat.floor_natCast_div_natCast]
  omega

/-- The six digits of a number below a million. -/
theorem padStart_eq {number : ℕ} (fits : number < 10 ^ 6) :
    padStart 6 '0' (toString (number : ℤ)) = String.ofList
      (OneTimePassword.lastDigits 6 number) := by
  have text : (toString (number : ℤ)).toList = Nat.toDigits 10 number := Nat.toList_repr
  rw [padStart, text, OneTimePassword.lastDigits_eq fits]

/-- For the Base32 text of a key of some bytes, the workbench computes the password of RFC 6238. -/
theorem computeTotp_eq (casing : UpperCasing) (hmac : List UInt8 → List UInt8 → Vector UInt8 20)
    {bytes : List UInt8} {text : String} (isBase32 : IsBase32 bytes text) (nonempty : bytes ≠ [])
    (now : ℕ) :
    computeTotp casing hmac text now = .ok (OneTimePassword.totp hmac bytes now) ∧
      decodeBase32 casing text = .ok bytes := by
  have decoded := decodeBase32_eq casing isBase32
  refine ⟨?_, decoded⟩
  have counter : counterBytes 8 ⌊(now : ℚ) / 1000 / 30⌋.toNat =
      OneTimePassword.counterText (now / 30000) := by
    rw [counter_eq, counterBytes_eq]
    rfl
  have remainder : ∀ value : ℕ, (value : ℤ).tmod 1000000 = (value % 10 ^ 6 : ℕ) := by
    intro value
    rw [Int.tmod_eq_emod_of_nonneg (by omega)]
    omega
  have fits : ∀ value : ℕ, value % 10 ^ 6 < 10 ^ 6 := fun value => Nat.mod_lt _ (by decide)
  rw [computeTotp, decoded]
  simp only [bind, Except.bind, if_neg nonempty, counter, binary_eq, remainder,
    padStart_eq (fits _)]
  rfl

/-- The uppercasing of the ASCII letters. -/
def asciiCasing : UpperCasing := ⟨fun character => [character.toUpper], fun _ _ => rfl⟩

/-- A digest whose last byte says where to read, and whose first bit is set. -/
def sampleDigest : Vector UInt8 20 :=
  ⟨#[0xff, 0xff, 0xff, 0xff, 0, 0, 0, 0, 0, 0, 0, 0, 0, 0, 0, 0, 0, 0, 0, 0], rfl⟩

/-- The key of the letters `f` and `o`, in small letters and with its padding. -/
theorem computeTotp_eq_sample :
    computeTotp asciiCasing (fun _ _ => sampleDigest) "mzxq====" 59000 =
        .ok (OneTimePassword.totp (fun _ _ => sampleDigest) [102, 111] 59000) ∧
      decodeBase32 asciiCasing "mzxq====" = .ok [102, 111] :=
  computeTotp_eq asciiCasing _ ⟨4, by decide, .inr (by decide)⟩ (by decide) 59000

end AuthStartpack.Workbench
