import Mathlib

/-!
Owns the time-based one-time passwords of RFC 6238, with steps of thirty seconds,
six digits and a hash of twenty bytes.

The module names nothing of the modelled repository.
-/

namespace AuthStartpack.OneTimePassword

/-- The counter as eight bytes, the highest first. -/
def counterText (counter : ℕ) : List UInt8 :=
  (List.range 8).map fun position => UInt8.ofNat (counter / 256 ^ (7 - position))

/-- Four bytes of the digest, from where its last four bits say, without the first bit. -/
def truncate (digest : Vector UInt8 20) : ℕ :=
  let offset := (digest.toList.getD 19 0).toNat % 16
  let byte (position : ℕ) : ℕ := (digest.toList.getD (offset + position) 0).toNat
  byte 0 % 128 * 2 ^ 24 + byte 1 * 2 ^ 16 + byte 2 * 2 ^ 8 + byte 3

/-- The last decimal digits of a number, with leading zeros. -/
def lastDigits : ℕ → ℕ → List Char
  | 0, _ => []
  | width + 1, number => lastDigits width (number / 10) ++ [Nat.digitChar (number % 10)]

/-- The password at a time in milliseconds. -/
def totp (hmac : List UInt8 → List UInt8 → Vector UInt8 20) (secret : List UInt8)
    (milliseconds : ℕ) : String :=
  let step := milliseconds / 30000
  String.ofList (lastDigits 6 (truncate (hmac secret (counterText step)) % 10 ^ 6))

/-! ### Leading zeros -/

theorem lastDigits_zero (width : ℕ) : lastDigits width 0 = List.replicate width '0' := by
  induction width with
  | zero => rfl
  | succ width inductionHypothesis =>
      rw [lastDigits, Nat.zero_div, inductionHypothesis, List.replicate_succ']
      rfl

/-- A number that fits is written with zeros before its own digits. -/
theorem lastDigits_eq {width number : ℕ} (fits : number < 10 ^ (width + 1)) :
    lastDigits (width + 1) number =
      List.replicate (width + 1 - (Nat.toDigits 10 number).length) '0' ++
        Nat.toDigits 10 number := by
  induction width generalizing number with
  | zero =>
      have small : number < 10 := by omega
      rw [Nat.toDigits_of_lt_base small, lastDigits, lastDigits, Nat.mod_eq_of_lt small]
      rfl
  | succ width inductionHypothesis =>
      by_cases small : number < 10
      · rw [Nat.toDigits_of_lt_base small, lastDigits, Nat.div_eq_of_lt small, lastDigits_zero,
          Nat.mod_eq_of_lt small]
        rfl
      · have below : number / 10 < 10 ^ (width + 1) := by
          rw [Nat.pow_succ] at fits
          omega
        have last : Nat.toDigits 10 number =
            Nat.toDigits 10 (number / 10) ++ [Nat.digitChar (number % 10)] :=
          Nat.toDigits_of_base_le (by decide) (by omega)
        rw [lastDigits, inductionHypothesis below, last, List.length_append, List.length_singleton,
          Nat.add_sub_add_right, List.append_assoc]

end AuthStartpack.OneTimePassword
