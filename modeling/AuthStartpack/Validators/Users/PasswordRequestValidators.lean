import AuthStartpack.Services.Auth.RegistrationService
import AuthStartpack.Validators.Common.PasswordRules
import Mathlib.Data.String.Basic

/-!
Owns the validators of the requests that set a password. They share the rules on
the password alone; the rule on the address is applied at registration only.
-/

namespace AuthStartpack

structure PasswordResetRequest where
  email : String

structure PasswordResetConfirmRequest where
  token : String
  newPassword : String

structure ChangePasswordRequest where
  currentPassword : String
  newPassword : String

def RegisterRequestValidator.validate (casing : Casing) (request : RegisterRequest) :
    List ValidationFailure :=
  EmailRules.email "Email" request.email ++
  PasswordRules.password casing "Password" request.password ++
  PasswordRules.notContainingEmail casing "Password" request.password request.email ++
  ValidationFailure.unless
    ⟨"DisplayName", ValidationErrorCodes.tooLong, "Display name must be at most 100 characters."⟩
    (request.displayName.all fun name => utf16Length name ≤ 100)

def PasswordResetRequestValidator.validate (request : PasswordResetRequest) :
    List ValidationFailure :=
  EmailRules.email "Email" request.email

def PasswordResetConfirmRequestValidator.validate (casing : Casing)
    (request : PasswordResetConfirmRequest) : List ValidationFailure :=
  ValidationFailure.unless
    ⟨"Token", ValidationErrorCodes.required, "A reset token is required."⟩
    (!isNullOrWhiteSpace (some request.token)) ++
  ValidationFailure.unless
    ⟨"Token", ValidationErrorCodes.tooLong, "Reset token is not valid."⟩
    (utf16Length request.token ≤ 256) ++
  PasswordRules.password casing "NewPassword" request.newPassword

def ChangePasswordRequestValidator.validate (casing : Casing) (request : ChangePasswordRequest) :
    List ValidationFailure :=
  ValidationFailure.unless
    ⟨"CurrentPassword", ValidationErrorCodes.required, "Your current password is required."⟩
    (!isNullOrWhiteSpace (some request.currentPassword)) ++
  ValidationFailure.unless
    ⟨"CurrentPassword", ValidationErrorCodes.passwordTooLong,
      s!"Password must be at most {PasswordRules.maximumLength} characters."⟩
    (utf16Length request.currentPassword ≤ PasswordRules.maximumLength) ++
  PasswordRules.password casing "NewPassword" request.newPassword ++
  ValidationFailure.unless
    ⟨"NewPassword", ValidationErrorCodes.passwordUnchanged,
      "The new password must differ from the current one."⟩
    (request.newPassword ≠ request.currentPassword)

/-! ### What a request satisfies that passes -/

/-- The rules on the password alone. -/
structure StrongPassword (casing : Casing) (password : String) : Prop where
  longEnough : 12 ≤ utf16Length password
  shortEnough : utf16Length password ≤ 256
  uncommon : PasswordDenyList.contains casing password = false
  unpredictable : PasswordRules.isPredictablePattern casing password = false

/-- The password contains the local part of the address, which has at least four characters. -/
def ContainsLocalPart (casing : Casing) (email password : String) : Prop :=
  4 ≤ utf16Length (PasswordRules.localPart email) ∧
    casing.contains password (PasswordRules.localPart email) = true

instance (casing : Casing) (email password : String) :
    Decidable (ContainsLocalPart casing email password) :=
  inferInstanceAs (Decidable (_ ∧ _))

section Passed

variable {casing : Casing}

theorem PasswordRules.password_eq_nil {propertyName password : String} :
    PasswordRules.password casing propertyName password = [] ↔
      isNullOrWhiteSpace (some password) = false ∧ StrongPassword casing password := by
  simp only [PasswordRules.password, List.append_eq_nil_iff, ValidationFailure.unless_eq_nil,
    decide_eq_true_eq, Bool.not_eq_true']
  constructor
  · rintro ⟨⟨⟨⟨shown, long⟩, short⟩, uncommon⟩, unpredictable⟩
    exact ⟨shown, long, short, uncommon, unpredictable⟩
  · rintro ⟨shown, long, short, uncommon, unpredictable⟩
    exact ⟨⟨⟨⟨shown, long⟩, short⟩, uncommon⟩, unpredictable⟩

/-- The bytes of a text are at least as many as its characters. -/
theorem length_le_utf8ByteSize (text : String) : text.toList.length ≤ text.utf8ByteSize := by
  rw [← String.utf8Len_toList]
  induction text.toList with
  | nil => exact Nat.le_refl _
  | cons character rest inductionHypothesis =>
      have positive := character.utf8Size_pos
      rw [String.utf8Len_cons, List.length_cons]
      omega

/-- No entry of the list has more than 26 characters. -/
theorem PasswordDenyList.contains_of_long {password : String} (long : 26 < password.toList.length) :
    PasswordDenyList.contains casing password = false := by
  have sizes : commonPasswords.all (·.utf8ByteSize ≤ 26) = true := by decide +kernel
  rw [PasswordDenyList.contains, List.any_eq_false]
  intro entry member same
  have size : entry.utf8ByteSize ≤ 26 := by simpa using List.all_eq_true.mp sizes entry member
  have lengths := congrArg List.length (of_decide_eq_true same)
  simp only [List.length_map] at lengths
  have bytes := length_le_utf8ByteSize entry
  omega

theorem PasswordRules.spares_of_passed {propertyName email password : String}
    (shown : isNullOrWhiteSpace (some email) = false)
    (passed : PasswordRules.notContainingEmail casing propertyName password email = []) :
    ¬ ContainsLocalPart casing email password := by
  rw [PasswordRules.notContainingEmail, ValidationFailure.unless_eq_nil, shown, Bool.false_or,
    Bool.or_eq_true, decide_eq_true_eq, Bool.not_eq_true'] at passed
  intro ⟨long, contained⟩
  rcases passed with short | absent
  · exact absurd long (by omega)
  · rw [absent] at contained
    exact Bool.false_ne_true contained

theorem RegisterRequestValidator.strong_of_passed {request : RegisterRequest}
    (passed : validate casing request = []) :
    StrongPassword casing request.password ∧
      ¬ ContainsLocalPart casing (trim request.email) request.password := by
  simp only [validate, List.append_eq_nil_iff] at passed
  obtain ⟨⟨⟨email, password⟩, contains⟩, -⟩ := passed
  refine ⟨(PasswordRules.password_eq_nil.mp password).2, ?_⟩
  simp only [EmailRules.email, List.append_eq_nil_iff, ValidationFailure.unless_eq_nil,
    decide_eq_true_eq, Bool.not_eq_true'] at email
  obtain ⟨⟨⟨shown, -⟩, -⟩, trimmed⟩ := email
  rw [trimmed]
  exact PasswordRules.spares_of_passed shown contains

theorem PasswordResetConfirmRequestValidator.strong_of_passed
    {request : PasswordResetConfirmRequest}
    (passed : validate casing request = []) : StrongPassword casing request.newPassword := by
  simp only [validate, List.append_eq_nil_iff] at passed
  exact (PasswordRules.password_eq_nil.mp passed.2).2

theorem ChangePasswordRequestValidator.strong_of_passed {request : ChangePasswordRequest}
    (passed : validate casing request = []) : StrongPassword casing request.newPassword := by
  simp only [validate, List.append_eq_nil_iff] at passed
  exact (PasswordRules.password_eq_nil.mp passed.1.2).2

end Passed

end AuthStartpack
