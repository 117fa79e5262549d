import AuthStartpack.Validators.Common.PasswordRules

/-!
Owns which runs of digits, letters and keys the pattern check of passwords finds.
The digits are looked up in a text that repeats them once, so a run that is at
least as long as a password is found only where it begins early enough.
-/

namespace AuthStartpack

/-- The casing of the runtime is that of ASCII on the characters of ASCII. -/
def Casing.LowersAscii (casing : Casing) : Prop :=
  ∀ character : Char, character.toNat < 128 → casing.toLower character = character.toLower

namespace PasswordRules

/-! ### Runs -/

/-- So many digits from this one on, each one so much further round than the last. -/
def digitRun (step start length : ℕ) : List Char :=
  (List.range length).map fun position => Nat.digitChar ((start + step * position) % 10)

/-- Each digit is one more than the last, and zero after nine. -/
def ascendingRun (start length : ℕ) : List Char := digitRun 1 start length

/-- Each digit is one less than the last, and nine after zero. -/
def descendingRun (start length : ℕ) : List Char := digitRun 9 start length

/-- The digit at which a descending run ends. -/
def lastOfDescending (start length : ℕ) : ℕ := (start + 9 * (length - 1)) % 10

def digitSequence : List Char := "01234567890123456789".toList

/-- The alphabet, and the rows of the keyboard one after the other. -/
def letterSequences : List String := ["abcdefghijklmnopqrstuvwxyz", "qwertyuiopasdfghjklzxcvbnm"]

section Runs

variable {step start length : ℕ}

theorem length_digitRun : (digitRun step start length).length = length := by
  rw [digitRun, List.length_map, List.length_range]

theorem isDigit_of_mem_digitRun {character : Char}
    (member : character ∈ digitRun step start length) :
    character.isDigit = true := by
  obtain ⟨position, -, rfl⟩ := List.mem_map.mp member
  have digits : ∀ digit < 10, (Nat.digitChar digit).isDigit = true := by decide
  exact digits _ (Nat.mod_lt _ (by decide))

/-- The sequence of digits is too short for longer runs. -/
theorem not_infix_of_long {run : List Char} (long : 20 < run.length) :
    ¬ run <:+: digitSequence := by
  intro found
  have bound := found.length_le
  have twenty : digitSequence.length = 20 := by decide
  omega

/-- Where an ascending run of the length of a password lies in the sequence of digits. -/
theorem ascendingRun_infix (digit : start < 10) (long : 12 ≤ length) :
    (ascendingRun start length <:+: digitSequence ↔ start + length ≤ 20) ∧
      ¬ (ascendingRun start length).reverse <:+: digitSequence := by
  have all : ∀ start < 10, ∀ length ∈ List.range' 12 9,
      (ascendingRun start length <:+: digitSequence ↔ start + length ≤ 20) ∧
        ¬ (ascendingRun start length).reverse <:+: digitSequence := by decide +kernel
  by_cases short : length ≤ 20
  case pos => exact all start digit length (List.mem_range'_1.mpr ⟨long, by omega⟩)
  case neg =>
    have size : (ascendingRun start length).length = length := length_digitRun
    have forwards : ¬ ascendingRun start length <:+: digitSequence := not_infix_of_long (by omega)
    have backwards : ¬ (ascendingRun start length).reverse <:+: digitSequence :=
      not_infix_of_long (by rw [List.length_reverse]; omega)
    exact ⟨⟨fun found => absurd found forwards, fun impossible => by omega⟩, backwards⟩

theorem descendingRun_infix (digit : start < 10) (long : 12 ≤ length) :
    ((descendingRun start length).reverse <:+: digitSequence ↔
      lastOfDescending start length + length ≤ 20) ∧
      ¬ descendingRun start length <:+: digitSequence := by
  have all : ∀ start < 10, ∀ length ∈ List.range' 12 9,
      ((descendingRun start length).reverse <:+: digitSequence ↔
        lastOfDescending start length + length ≤ 20) ∧
        ¬ descendingRun start length <:+: digitSequence := by decide +kernel
  by_cases short : length ≤ 20
  case pos => exact all start digit length (List.mem_range'_1.mpr ⟨long, by omega⟩)
  case neg =>
    have size : (descendingRun start length).length = length := length_digitRun
    have forwards : ¬ descendingRun start length <:+: digitSequence := not_infix_of_long (by omega)
    have backwards : ¬ (descendingRun start length).reverse <:+: digitSequence :=
      not_infix_of_long (by rw [List.length_reverse]; omega)
    exact ⟨⟨fun found => absurd found backwards, fun impossible => by omega⟩, forwards⟩

/-- A run of at least two digits begins with two that differ. -/
theorem digitRun_cons (direction : step = 1 ∨ step = 9) (start length : ℕ) :
    ∃ first second rest, digitRun step start (length + 2) = first :: second :: rest ∧
      second ≠ first := by
  have differ : ∀ digit < 10, Nat.digitChar ((digit + 1) % 10) ≠ Nat.digitChar digit ∧
      Nat.digitChar ((digit + 9) % 10) ≠ Nat.digitChar digit := by decide
  have pair := differ (start % 10) (Nat.mod_lt _ (by decide))
  rw [Nat.mod_add_mod, Nat.mod_add_mod] at pair
  have begins : digitRun step start (length + 2) =
      Nat.digitChar (start % 10) :: Nat.digitChar ((start + step) % 10) ::
        (((List.range length).map Nat.succ).map Nat.succ).map
          fun position => Nat.digitChar ((start + step * position) % 10) := by
    rw [digitRun, List.range_succ_eq_map, List.map_cons, List.range_succ_eq_map, List.map_cons,
      List.map_cons, Nat.mul_zero, Nat.add_zero, Nat.succ_eq_add_one, Nat.zero_add, Nat.mul_one]
  refine ⟨_, _, _, begins, ?_⟩
  rcases direction with rfl | rfl
  · exact pair.1
  · exact pair.2

/-- No letter is a digit. -/
theorem not_infix_letters {run : List Char} {first : Char} (member : first ∈ run)
    (digit : first.isDigit = true) : ∀ sequence ∈ letterSequences, ¬ run <:+: sequence.toList := by
  have letters : ∀ sequence ∈ letterSequences, sequence.toList.all (·.isDigit = false) = true := by
    decide +kernel
  intro sequence listed found
  have letter := List.all_iff_forall_prop.mp (letters sequence listed) first (found.subset member)
  rw [digit] at letter
  contradiction

end Runs

/-! ### Detection -/

section Detection

variable {casing : Casing} {password : String} {start length : ℕ}

/-- What the check looks for once the characters are not all the same. -/
theorem isPredictablePattern_of_differ {first second : Char} {rest : List Char}
    (text : password.toList = first :: second :: rest) (differ : second ≠ first) :
    isPredictablePattern casing password = true ↔
      ∃ sequence ∈ sequences, password.toList.map casing.toLower <:+: sequence.toList ∨
        (password.toList.map casing.toLower).reverse <:+: sequence.toList := by
  have mixed : (second :: rest).all (· = first) = false := by
    rw [List.all_cons, decide_eq_false differ, Bool.false_and]
  rw [isPredictablePattern, text]
  simp only [mixed, Bool.and_false, Bool.false_or, List.any_eq_true, Bool.or_eq_true,
    decide_eq_true_eq]

/-- The casing leaves the digits as they are. -/
theorem map_toLower_digitRun {step : ℕ} (lowers : casing.LowersAscii) :
    (digitRun step start length).map casing.toLower = digitRun step start length := by
  have same : ∀ character ∈ digitRun step start length, casing.toLower character = character := by
    intro character member
    have digit := Char.isDigit_iff_toNat.mp (isDigit_of_mem_digitRun member)
    have bounds : 48 ≤ character.toNat ∧ character.toNat ≤ 57 := digit
    rw [lowers character (by omega)]
    unfold Char.toLower
    apply dif_neg
    rintro ⟨above, -⟩
    have letter : 65 ≤ character.toNat := above
    omega
  rw [List.map_congr_left same, List.map_id']

/-- A run of digits is as long as its number of digits. -/
theorem utf16Length_digitRun {step : ℕ} (text : password.toList = digitRun step start length) :
    utf16Length password = length := by
  have ones : ∀ character ∈ digitRun step start length,
      (if character.toNat < 0x10000 then 1 else 2) = Function.const Char 1 character := by
    intro character member
    have digit := Char.isDigit_iff_toNat.mp (isDigit_of_mem_digitRun member)
    have bound : character.toNat ≤ 57 := digit.2
    exact if_pos (by omega)
  rw [utf16Length, text, List.map_congr_left ones, List.map_const, List.sum_replicate_nat,
    length_digitRun,
    Nat.mul_one]

theorem mem_sequences {holds : String → Prop} :
    (∃ sequence ∈ sequences, holds sequence) ↔
      holds "01234567890123456789" ∨ ∃ sequence ∈ letterSequences, holds sequence := by
  simp only [sequences, letterSequences, List.exists_mem_cons_iff, List.not_mem_nil, false_and,
    exists_false, or_false]
  apply or_left_comm

/-- Digits are found among the digits alone. -/
theorem isPredictablePattern_digitRun {step : ℕ} (direction : step = 1 ∨ step = 9)
    (lowers : casing.LowersAscii) (long : 12 ≤ length)
    (text : password.toList = digitRun step start length) :
    isPredictablePattern casing password = true ↔
      digitRun step start length <:+: digitSequence ∨
        (digitRun step start length).reverse <:+: digitSequence := by
  obtain ⟨more, rfl⟩ : ∃ more, length = more + 2 := ⟨length - 2, by omega⟩
  obtain ⟨first, second, rest, run, differ⟩ := digitRun_cons direction start more
  have member : first ∈ digitRun step start (more + 2) := by
    rw [run]
    exact List.mem_cons_self
  have digit := isDigit_of_mem_digitRun member
  rw [isPredictablePattern_of_differ (text.trans run) differ, text, map_toLower_digitRun lowers,
    mem_sequences]
  apply or_iff_left
  rintro ⟨sequence, listed, found | found⟩
  · exact not_infix_letters member digit sequence listed found
  · exact not_infix_letters (List.mem_reverse.mpr member) digit sequence listed found

/-- What a password is that runs along a sequence, in whatever case. -/
def RunsAlong (password : String) (sequence : String) : Prop :=
  password.toList.map Char.toLower <:+: sequence.toList ∨
    (password.toList.map Char.toLower).reverse <:+: sequence.toList

theorem map_toLower_letters (lowers : casing.LowersAscii) {sequence : String}
    (letters : sequence ∈ letterSequences) (runs : RunsAlong password sequence) :
    password.toList.map casing.toLower = password.toList.map Char.toLower := by
  have small : ∀ sequence ∈ letterSequences, sequence.toList.all (·.toNat < 128) = true := by
    decide +kernel
  apply List.map_congr_left
  intro character member
  have lowered := List.mem_map_of_mem (f := Char.toLower) member
  have inside : character.toLower ∈ sequence.toList := by
    rcases runs with found | found
    · exact found.subset lowered
    · exact found.subset (List.mem_reverse.mpr lowered)
  have bound := List.all_iff_forall_prop.mp (small sequence letters) _ inside
  apply lowers
  by_cases upper : 65 ≤ character.toNat ∧ character.toNat ≤ 90
  case pos => omega
  case neg =>
    have unchanged : character.toLower = character := by
      unfold Char.toLower
      exact dif_neg upper
    rw [unchanged] at bound
    exact bound

theorem isPredictablePattern_letters (lowers : casing.LowersAscii) (notEmpty : password ≠ "")
    {sequence : String} (letters : sequence ∈ letterSequences)
    (runs : RunsAlong password sequence) :
    isPredictablePattern casing password = true := by
  have characters : password.toList ≠ [] := by
    intro none
    exact notEmpty (String.toList_injective none)
  obtain ⟨first, rest, text⟩ := List.exists_cons_of_ne_nil characters
  have found : ∃ sequence ∈ sequences, password.toList.map casing.toLower <:+: sequence.toList ∨
      (password.toList.map casing.toLower).reverse <:+: sequence.toList := by
    rw [map_toLower_letters lowers letters runs, mem_sequences]
    exact .inr ⟨sequence, letters, runs⟩
  rw [isPredictablePattern, text]
  rw [text] at found
  simp only [List.any_eq_true, Bool.or_eq_true, decide_eq_true_eq]
  exact .inr found

/-- Every run of letters is found. A run of digits of the length of a password is found
exactly where, read upwards, it ends before the repeated sequence does. -/
theorem predictable_iff (lowers : casing.LowersAscii)
    (long : minimumLength ≤ utf16Length password) :
    (∀ sequence ∈ letterSequences, RunsAlong password sequence →
      isPredictablePattern casing password = true) ∧
    (∀ start < 10, ∀ length, password.toList = ascendingRun start length →
      (isPredictablePattern casing password = true ↔ start + length ≤ 20)) ∧
    ∀ start < 10, ∀ length, password.toList = descendingRun start length →
      (isPredictablePattern casing password = true ↔
        lastOfDescending start length + length ≤ 20) := by
  refine ⟨?letters, ?ascending, ?descending⟩
  case letters =>
    intro sequence letters runs
    apply isPredictablePattern_letters lowers _ letters runs
    rintro rfl
    contradiction
  case ascending =>
    intro start digit length text
    rw [utf16Length_digitRun text] at long
    have places := ascendingRun_infix digit long
    rw [isPredictablePattern_digitRun (.inl rfl) lowers long text, ← places.1]
    exact or_iff_left places.2
  case descending =>
    intro start digit length text
    rw [utf16Length_digitRun text] at long
    have places := descendingRun_infix digit long
    rw [isPredictablePattern_digitRun (.inr rfl) lowers long text, ← places.1]
    exact or_iff_right places.2

end Detection

theorem predictable_sample :
    isPredictablePattern .ascii "890123456789" = true ∧
      isPredictablePattern .ascii "098765432109" = false := by
  have lowers : Casing.ascii.LowersAscii := fun _ _ => rfl
  constructor
  · have long : minimumLength ≤ utf16Length "890123456789" := by decide +kernel
    have runs := predictable_iff lowers long
    apply (runs.2.1 8 (by decide) 12 (by decide +kernel)).mpr
    decide
  · have long : minimumLength ≤ utf16Length "098765432109" := by decide +kernel
    have runs := predictable_iff lowers long
    apply Bool.eq_false_iff.mpr
    intro found
    have bound := (runs.2.2 0 (by decide) 12 (by decide +kernel)).mp found
    revert bound
    decide

/-- One digit lower and the same run is found. -/
theorem ninesWrap_missed :
    "901234567890".toList = ascendingRun 9 12 ∧ minimumLength ≤ utf16Length "901234567890" ∧
      isPredictablePattern .ascii "901234567890" = false := by
  decide +kernel

end PasswordRules

end AuthStartpack
