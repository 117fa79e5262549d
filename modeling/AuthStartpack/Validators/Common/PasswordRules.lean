import AuthStartpack.Encoding.Casing
import AuthStartpack.Validators.Common.PaginationRules

/-!
Owns the rules on email addresses and passwords, and the validators of the
requests that set a password. Registration is the only request with both the
address and the password.
-/

namespace AuthStartpack

namespace ValidationErrorCodes

def required : String := "required"
def emailInvalid : String := "email_invalid"
def emailTooLong : String := "email_too_long"
def passwordTooShort : String := "password_too_short"
def passwordTooLong : String := "password_too_long"
def passwordTooCommon : String := "password_too_common"
def passwordPredictablePattern : String := "password_predictable_pattern"
def passwordContainsEmail : String := "password_contains_email"
def passwordUnchanged : String := "password_unchanged"

end ValidationErrorCodes

/-- `CommonPasswords.txt` -/
def commonPasswords : List String :=
  ["passwordpassword", "password123456", "password1234567", "password12345678",
   "passwordpassword1", "password123456789", "p@ssw0rdp@ssw0rd", "passw0rdpassw0rd",
   "password!@#$%^&*", "mypasswordis123", "thisismypassword", "passwordisstrong",
   "notmypasswordlol", "correctpassword1", "qwertyuiop123456", "qwertyuiopasdfgh",
   "qwertyuiop[]\\", "1qaz2wsx3edc4rfv", "1q2w3e4r5t6y7u8i", "qazwsxedcrfvtgby",
   "asdfghjkl;'12345", "zxcvbnm,./12345", "qwertyuiop!@#$%^", "poiuytrewqlkjhgf",
   "1234567890qwerty", "qwerty1234567890", "123456789012", "1234567890123", "12345678901234",
   "123456789012345", "1234567890123456", "098765432109", "9876543210987", "abcdefghijkl",
   "abcdefghijklm", "abcdefghijklmnop", "abcdefghijklmnopqrstuvwxyz", "111111111111",
   "000000000000", "121212121212", "123123123123", "112233445566", "101010101010", "123454321012",
   "147258369147", "159357456852", "Password123!", "Password1234!", "Password@123456",
   "Passw0rd!2345", "Welcome123456!", "Welcome@123456", "Summer2024!!!", "Summer2025!!!",
   "Winter2024!!!", "Winter2025!!!", "Spring2024!!!", "Autumn2024!!!", "January2024!!",
   "December2024!", "Qwerty123456!", "Admin@123456789", "Admin123456789", "Root@123456789",
   "Changeme123456", "ChangeMe!12345", "Letmein123456!", "Trustno1234567", "iloveyouforever",
   "iloveyousomuch", "letmeinplease1", "letmeinalready", "opensesame1234", "supersecret123",
   "supersecretpass", "topsecret12345", "secretpassword", "mysecretpass12", "nobodyknowsthis",
   "youllneverguess", "guessthisone123", "hackmeifyoucan", "gotcha12345678", "whatisapassword",
   "idontknowmypass", "forgotmypassword", "justletmelogin1", "administrator123",
   "administratorpwd", "sysadmin1234567", "superuser123456", "defaultpassword", "developer123456",
   "production12345", "staging12345678", "localhost123456", "postgres1234567", "database1234567",
   "webmaster123456", "testtesttest123", "demodemodemo123", "sampledata12345", "temporarypass12",
   "temppassword123", "princesspeach12", "starwars1234567", "harrypotter1234", "gameofthrones12",
   "manchesterunited", "liverpoolfc1234", "realmadrid12345", "barcelona123456", "dragonballz1234",
   "pokemonmaster12", "thebeatles1234", "metallica12345", "ilovefootball12", "ilovechocolate1",
   "abc123abc123abc", "qwe123qwe123qwe", "asdasdasdasdasd", "zxczxczxczxczxc", "aaaaaaaaaaaaaaa",
   "abcabcabcabcabc", "xyzxyzxyzxyzxyz", "loveloveloveyou", "hellohellohello", "testtest1234567",
   "monkeymonkey123", "dragondragon123", "footballfootball", "baseballbaseball",
   "sunshinesunshine", "princessprincess", "superman1234567", "batman123456789"]

def PasswordDenyList.contains (casing : Casing) (password : String) : Bool :=
  commonPasswords.any (casing.equals password)

namespace EmailRules

def maximumLength : ℕ := 254

/-- `EmailAddress()`: one `@`, neither the first nor the last character. -/
def isAddress (email : String) : Bool :=
  email.toList.count '@' = 1 && email.toList.head? ≠ some '@' && email.toList.getLast? ≠ some '@'

def email (propertyName email : String) : List ValidationFailure :=
  ValidationFailure.unless
    ⟨propertyName, ValidationErrorCodes.required, "An email address is required."⟩
    (!isNullOrWhiteSpace (some email)) ++
  ValidationFailure.unless
    ⟨propertyName, ValidationErrorCodes.emailTooLong,
      s!"Email must be at most {maximumLength} characters."⟩
    (utf16Length email ≤ maximumLength) ++
  ValidationFailure.unless
    ⟨propertyName, ValidationErrorCodes.emailInvalid, "Email address is not valid."⟩
    (isAddress email) ++
  ValidationFailure.unless
    ⟨propertyName, ValidationErrorCodes.emailInvalid,
      "Email address must not have leading or trailing whitespace."⟩
    (trim email = email)

end EmailRules

namespace PasswordRules

def minimumLength : ℕ := 12

def maximumLength : ℕ := 256

def sequences : List String :=
  ["abcdefghijklmnopqrstuvwxyz", "01234567890123456789", "qwertyuiopasdfghjklzxcvbnm"]

/-- One repeated character, or a run along a sequence in either direction. -/
def isPredictablePattern (casing : Casing) (password : String) : Bool :=
  match password.toList with
  | [] => false
  | first :: rest =>
      -- Outside the basic plane a character is a pair of surrogates, which differ.
      (first.toNat < 0x10000 && rest.all (· = first)) ||
        let lowered := (first :: rest).map casing.toLower
        sequences.any fun sequence =>
          decide (lowered <:+: sequence.toList) || decide (lowered.reverse <:+: sequence.toList)

def password (casing : Casing) (propertyName password : String) : List ValidationFailure :=
  ValidationFailure.unless
    ⟨propertyName, ValidationErrorCodes.required, "A password is required."⟩
    (!isNullOrWhiteSpace (some password)) ++
  ValidationFailure.unless
    ⟨propertyName, ValidationErrorCodes.passwordTooShort,
      s!"Password must be at least {minimumLength} characters."⟩
    (minimumLength ≤ utf16Length password) ++
  ValidationFailure.unless
    ⟨propertyName, ValidationErrorCodes.passwordTooLong,
      s!"Password must be at most {maximumLength} characters."⟩
    (utf16Length password ≤ maximumLength) ++
  ValidationFailure.unless
    ⟨propertyName, ValidationErrorCodes.passwordTooCommon,
      "This password is too common. Choose something less predictable."⟩
    (!PasswordDenyList.contains casing password) ++
  ValidationFailure.unless
    ⟨propertyName, ValidationErrorCodes.passwordPredictablePattern,
      "This password is a repeated character or a simple sequence."⟩
    (!isPredictablePattern casing password)

def localPart (email : String) : String := (split '@' email).headD ""

def notContainingEmail (casing : Casing) (propertyName password email : String) :
    List ValidationFailure :=
  ValidationFailure.unless
    ⟨propertyName, ValidationErrorCodes.passwordContainsEmail,
      "Password must not contain your email address."⟩
    (isNullOrWhiteSpace (some email) ||
      (utf16Length (localPart email) < 4 || !casing.contains password (localPart email)))

end PasswordRules

end AuthStartpack
