import AuthStartpack.Encoding.DecimalInteger
import AuthStartpack.Encoding.Splitting
import AuthStartpack.Services.Dependencies

/-!
Owns `Argon2PasswordHasher`: which stored hashes are made again at the next
login. The cost of a hash is read out of its text. The Argon2 package itself is
a parameter.
-/

namespace AuthStartpack

structure PasswordHashingOptions where
  passwordMemoryKib : Int32 := 65536
  passwordIterations : Int32 := 3
  passwordParallelism : Int32 := 1
  secretMemoryKib : Int32 := 8192
  secretIterations : Int32 := 1
  secretParallelism : Int32 := 1
  saltLength : Int32 := 16
  hashLength : Int32 := 32
deriving DecidableEq, Repr

/-- What the package is asked for. -/
structure Argon2Cost where
  timeCost : Int32
  memoryCost : Int32
  parallelism : Int32
  hashLength : Int32
deriving DecidableEq, Repr

/-- Hashing takes the number of the drawn salt. Verification of a malformed hash throws, which is
`none`. -/
structure Argon2 where
  hash : String → Argon2Cost → ℕ → String
  verify : String → String → Option Bool

namespace Argon2PasswordHasher

/-! ### Parsing -/

/-- The three numbers of the parameter field. -/
inductive Parameter
  | memory
  | iterations
  | parallelism
deriving DecidableEq, Repr

def Parameter.name : Parameter → String
  | .memory => "m"
  | .iterations => "t"
  | .parallelism => "p"

structure Parameters where
  memory : ℤ := 0
  iterations : ℤ := 0
  parallelism : ℤ := 0
deriving DecidableEq, Repr

/-- One round of the loop over the pairs. -/
def readPair (parsed : Parameters) (pair : String) : Option Parameters :=
  match split '=' pair with
  | [name, text] =>
      match tryParseInt32 text with
      | none => none
      | some value =>
          match name with
          | "m" => some { parsed with memory := value }
          | "t" => some { parsed with iterations := value }
          | "p" => some { parsed with parallelism := value }
          | _ => none
  | _ => none

/-- `$argon2id$v=19$m=65536,t=3,p=1$<salt>$<digest>` -/
def parseParameters (hash : String) : Option Parameters :=
  match (split '$' hash)[3]? with
  | none => none
  | some segment =>
      match (split ',' segment).foldlM readPair {} with
      | none => none
      | some parsed =>
          if 0 < parsed.memory && 0 < parsed.iterations && 0 < parsed.parallelism then some parsed
          else none

def needsRehash (options : PasswordHashingOptions) (hash : String) : Bool :=
  match parseParameters hash with
  | none => true
  | some parsed =>
      parsed.memory < options.passwordMemoryKib.toInt ||
        parsed.iterations < options.passwordIterations.toInt ||
        parsed.parallelism < options.passwordParallelism.toInt

/-! ### Hashing -/

variable (argon2 : Argon2) (options : PasswordHashingOptions)

def passwordCost : Argon2Cost where
  timeCost := options.passwordIterations
  memoryCost := options.passwordMemoryKib
  parallelism := options.passwordParallelism
  hashLength := options.hashLength

def secretCost : Argon2Cost where
  timeCost := options.secretIterations
  memoryCost := options.secretMemoryKib
  parallelism := options.secretParallelism
  hashLength := options.hashLength

def hasher : PasswordHasher where
  hash password salt := argon2.hash password (passwordCost options) salt
  hashSecret secret salt := argon2.hash secret (secretCost options) salt
  verify password hash := (argon2.verify hash password).getD false
  needsRehash := needsRehash options

/-! ### What is read out of a hash -/

def Parameters.get (parsed : Parameters) : Parameter → ℤ
  | .memory => parsed.memory
  | .iterations => parsed.iterations
  | .parallelism => parsed.parallelism

def Parameters.set (parsed : Parameters) (value : ℤ) : Parameter → Parameters
  | .memory => { parsed with memory := value }
  | .iterations => { parsed with iterations := value }
  | .parallelism => { parsed with parallelism := value }

@[simp]
theorem Parameters.get_set_self (parsed : Parameters) (value : ℤ) (parameter : Parameter) :
    (parsed.set value parameter).get parameter = value := by
  cases parameter <;> rfl

theorem Parameters.get_set_of_ne {parameter other : Parameter} (different : other ≠ parameter)
    (parsed : Parameters) (value : ℤ) :
    (parsed.set value parameter).get other = parsed.get other := by
  cases parameter <;> cases other <;> first | rfl | exact absurd rfl different

/-- The configured number. -/
def Parameter.configured (options : PasswordHashingOptions) : Parameter → Int32
  | .memory => options.passwordMemoryKib
  | .iterations => options.passwordIterations
  | .parallelism => options.passwordParallelism

theorem Parameter.name_injective {left right : Parameter} (same : left.name = right.name) :
    left = right := by
  revert same
  cases left <;> cases right <;> decide

theorem Parameter.name_free (parameter : Parameter) : '=' ∉ parameter.name.toList := by
  cases parameter <;> decide

/-- The pair gives a value to the parameter. -/
def Assigns (parameter : Parameter) (pair text : String) : Prop :=
  pair = parameter.name ++ String.singleton '=' ++ text

theorem split_of_assigns {parameter : Parameter} {pair text : String}
    (assigns : Assigns parameter pair text) :
    split '=' pair = parameter.name :: split '=' text := by
  rw [assigns, split_append parameter.name_free]

/-- The last value that these pairs give. -/
def LastGiven (parameter : Parameter) (pairs : List String) (value : ℤ) : Prop :=
  ∃ earlier pair later text, pairs = earlier ++ pair :: later ∧ Assigns parameter pair text ∧
    tryParseInt32 text = some value ∧ ∀ other ∈ later, ∀ text, ¬ Assigns parameter other text

section Reading

variable {parsed next : Parameters} {pair : String} {pairs : List String} {parameter : Parameter}

theorem readPair_eq_some (read : readPair parsed pair = some next) :
    ∃ parameter text value, Assigns parameter pair text ∧ tryParseInt32 text = some value ∧
      next = parsed.set value parameter := by
  unfold readPair at read
  split at read
  · rename_i name text parts
    have pairText : pair = name ++ String.singleton '=' ++ text := eq_append_of_split parts
    cases number : tryParseInt32 text with
    | none =>
        rw [number] at read
        cases read
    | some value =>
        rw [number] at read
        dsimp only at read
        split at read
        · exact ⟨.memory, text, value, pairText, number, (Option.some.inj read).symm⟩
        · exact ⟨.iterations, text, value, pairText, number, (Option.some.inj read).symm⟩
        · exact ⟨.parallelism, text, value, pairText, number, (Option.some.inj read).symm⟩
        · cases read
  · cases read

/-- A pair does not give values to two parameters. -/
theorem Assigns.unique {other : Parameter} {text otherText : String}
    (assigns : Assigns parameter pair text) (assignsOther : Assigns other pair otherText) :
    parameter = other := by
  have same := (split_of_assigns assigns).symm.trans (split_of_assigns assignsOther)
  exact Parameter.name_injective (List.cons.inj same).1

/-- The loop ends with the last value given, or with the one it began with. -/
theorem foldlM_readPair {start : Parameters} (read : pairs.foldlM readPair start = some parsed)
    (parameter : Parameter) :
    LastGiven parameter pairs (parsed.get parameter) ∨
      (∀ pair ∈ pairs, ∀ text, ¬ Assigns parameter pair text) ∧
        parsed.get parameter = start.get parameter := by
  induction pairs generalizing start with
  | nil =>
      right
      cases read
      exact ⟨fun _ impossible => (nomatch impossible), rfl⟩
  | cons pair rest inductionHypothesis =>
      rw [List.foldlM_cons] at read
      obtain ⟨next, first, others⟩ := Option.bind_eq_some_iff.mp read
      obtain ⟨given, text, value, assigns, number, rfl⟩ := readPair_eq_some first
      rcases inductionHypothesis others with later | ⟨never, kept⟩
      · left
        obtain ⟨earlier, last, after, lastText, rfl, lastAssigns, lastNumber, final⟩ := later
        exact ⟨pair :: earlier, last, after, lastText, rfl, lastAssigns, lastNumber, final⟩
      · by_cases same : parameter = given
        · left
          subst same
          refine ⟨[], pair, rest, text, rfl, assigns, ?_, never⟩
          rw [number, kept, Parameters.get_set_self]
        · right
          constructor
          · intro other member otherText otherAssigns
            rcases List.mem_cons.mp member with rfl | inRest
            · exact same (otherAssigns.unique assigns)
            · exact never other inRest otherText otherAssigns
          · rw [kept, Parameters.get_set_of_ne same]

theorem parseParameters_eq_some {hash : String} (read : parseParameters hash = some parsed) :
    ∃ segment, (split '$' hash)[3]? = some segment ∧
      ∀ parameter, LastGiven parameter (split ',' segment) (parsed.get parameter) := by
  unfold parseParameters at read
  split at read
  · cases read
  rename_i segment found
  refine ⟨segment, found, ?_⟩
  split at read
  · cases read
  rename_i folded loop
  split at read
  case isFalse => cases read
  rename_i positive
  cases read
  simp only [Bool.and_eq_true, decide_eq_true_eq] at positive
  intro parameter
  rcases foldlM_readPair loop parameter with given | ⟨-, default_⟩
  · exact given
  · -- Without a value it would have stayed at zero.
    have zero : parsed.get parameter = 0 := by
      rw [default_]
      cases parameter <;> rfl
    have above : 0 < parsed.get parameter := by
      cases parameter
      · exact positive.1.1
      · exact positive.1.2
      · exact positive.2
    omega

theorem needsRehash_of_parsed {options : PasswordHashingOptions} {hash : String}
    (read : parseParameters hash = some parsed) :
    needsRehash options hash = true ↔
      ∃ parameter, parsed.get parameter < (Parameter.configured options parameter).toInt := by
  simp only [needsRehash, read, Bool.or_eq_true, decide_eq_true_eq]
  constructor
  · rintro ((low | low) | low)
    · exact ⟨.memory, low⟩
    · exact ⟨.iterations, low⟩
    · exact ⟨.parallelism, low⟩
  · rintro ⟨parameter, low⟩
    cases parameter
    · exact .inl (.inl low)
    · exact .inl (.inr low)
    · exact .inr low

/-- A hash that is kept gives each parameter, and in the end a value that is high enough. -/
theorem given_of_kept {options : PasswordHashingOptions} {hash : String}
    (kept : needsRehash options hash = false) :
    ∃ segment, (split '$' hash)[3]? = some segment ∧
      ∀ parameter, ∃ value, LastGiven parameter (split ',' segment) value ∧
        (Parameter.configured options parameter).toInt ≤ value := by
  cases read : parseParameters hash with
  | none =>
      rw [needsRehash, read] at kept
      cases kept
  | some parsed =>
      obtain ⟨segment, found, given⟩ := parseParameters_eq_some read
      refine ⟨segment, found, fun parameter => ⟨_, given parameter, ?_⟩⟩
      by_contra low
      have again : needsRehash options hash = true :=
        (needsRehash_of_parsed read).mpr ⟨parameter, Int.not_le.mp low⟩
      rw [kept] at again
      cases again

end Reading

/-! ### What is written into a hash -/

def decimal (number : Int32) : String := toString number.toInt

/-- The parameter field of an encoded hash. -/
def encodeParameters (memory iterations parallelism : Int32) : String :=
  "m=" ++ decimal memory ++ ",t=" ++ decimal iterations ++ ",p=" ++ decimal parallelism

/-- An encoded hash. -/
def encode (memory iterations parallelism : Int32) (salt digest : String) : String :=
  "$argon2id$v=19$" ++ encodeParameters memory iterations parallelism ++ "$" ++ salt ++
    "$" ++ digest

section Writing

variable {memory iterations parallelism : Int32}

/-- A positive number is written as digits, and read back from them. -/
theorem decimal_of_pos {number : Int32} (positive : 0 < number) :
    tryParseInt32 (decimal number) = some number.toInt ∧
      ∀ character ∈ (decimal number).toList, character.isDigit = true := by
  have above : 0 < number.toInt := by
    have lower := Int32.lt_iff_toInt_lt.mp positive
    exact lower
  have below : number.toInt < 2 ^ 31 := number.toInt_lt
  obtain ⟨value, same⟩ : ∃ value : ℕ, number.toInt = value := ⟨number.toInt.toNat, by omega⟩
  rw [decimal, same]
  constructor
  · exact tryParseInt32_toString (by omega)
  · intro character member
    have text : (toString (value : ℤ)).toList = Nat.toDigits 10 value := Nat.toList_repr
    rw [text] at member
    exact Nat.isDigit_of_mem_toDigits (by decide) (by decide) member

/-- Digits are none of the separators. -/
theorem free_of_digits {separator : Char} {text : String} (other : separator.isDigit = false)
    (digits : ∀ character ∈ text.toList, character.isDigit = true) : separator ∉ text.toList := by
  intro member
  rw [digits separator member] at other
  cases other

theorem split_encode (memoryPositive : 0 < memory) (iterationsPositive : 0 < iterations)
    (parallelismPositive : 0 < parallelism) (salt digest : String) :
    (split '$' (encode memory iterations parallelism salt digest))[3]? =
      some (encodeParameters memory iterations parallelism) := by
  have field : '$' ∉ (encodeParameters memory iterations parallelism).toList := by
    have memoryFree := free_of_digits (show '$'.isDigit = false from rfl)
      (decimal_of_pos memoryPositive).2
    have iterationsFree := free_of_digits (show '$'.isDigit = false from rfl)
      (decimal_of_pos iterationsPositive).2
    have parallelismFree := free_of_digits (show '$'.isDigit = false from rfl)
      (decimal_of_pos parallelismPositive).2
    simp [encodeParameters, memoryFree, iterationsFree, parallelismFree]
  have nothing : '$' ∉ "".toList := by decide
  have type : '$' ∉ "argon2id".toList := by decide
  have version : '$' ∉ "v=19".toList := by decide
  have text : encode memory iterations parallelism salt digest =
      "" ++ String.singleton '$' ++ ("argon2id" ++ String.singleton '$' ++ ("v=19" ++
        String.singleton '$' ++ (encodeParameters memory iterations parallelism ++
          String.singleton '$' ++ (salt ++ "$" ++ digest)))) := by
    unfold encode
    generalize encodeParameters memory iterations parallelism = parameters
    apply String.toList_injective
    simp
  rw [text, split_append nothing, split_append type, split_append version, split_append field]
  rfl

theorem readPair_written {parsed : Parameters} {parameter : Parameter} {number : Int32}
    (positive : 0 < number) :
    readPair parsed (parameter.name ++ String.singleton '=' ++ decimal number) =
      some (parsed.set number.toInt parameter) := by
  obtain ⟨number_, digits⟩ := decimal_of_pos positive
  have free := free_of_digits (show '='.isDigit = false from rfl) digits
  rw [readPair, split_append parameter.name_free, split_of_free free]
  dsimp only
  rw [number_]
  cases parameter <;> rfl

theorem parseParameters_encode (memoryPositive : 0 < memory) (iterationsPositive : 0 < iterations)
    (parallelismPositive : 0 < parallelism) (salt digest : String) :
    parseParameters (encode memory iterations parallelism salt digest) =
      some ⟨memory.toInt, iterations.toInt, parallelism.toInt⟩ := by
  have comma : ','.isDigit = false := rfl
  have memoryFree := free_of_digits comma (decimal_of_pos memoryPositive).2
  have iterationsFree := free_of_digits comma (decimal_of_pos iterationsPositive).2
  have parallelismFree := free_of_digits comma (decimal_of_pos parallelismPositive).2
  let written (parameter : Parameter) (number : Int32) : String :=
    parameter.name ++ String.singleton '=' ++ decimal number
  have text : encodeParameters memory iterations parallelism =
      written .memory memory ++ String.singleton ',' ++ (written .iterations iterations ++
        String.singleton ',' ++ written .parallelism parallelism) := by
    apply String.toList_injective
    simp [encodeParameters, written, Parameter.name]
  have pairs : split ',' (encodeParameters memory iterations parallelism) =
      [written .memory memory, written .iterations iterations,
        written .parallelism parallelism] := by
    rw [text, split_append, split_append, split_of_free]
    · simp [written, Parameter.name, parallelismFree]
    · simp [written, Parameter.name, iterationsFree]
    · simp [written, Parameter.name, memoryFree]
  have loop : (split ',' (encodeParameters memory iterations parallelism)).foldlM readPair {} =
      some ⟨memory.toInt, iterations.toInt, parallelism.toInt⟩ := by
    rw [pairs]
    simp only [List.foldlM_cons, List.foldlM_nil, written, readPair_written memoryPositive,
      readPair_written iterationsPositive, readPair_written parallelismPositive]
    rfl
  have positive : (0 < memory.toInt && 0 < iterations.toInt && 0 < parallelism.toInt) = true := by
    simp only [Bool.and_eq_true, decide_eq_true_eq]
    exact ⟨⟨Int32.lt_iff_toInt_lt.mp memoryPositive, Int32.lt_iff_toInt_lt.mp iterationsPositive⟩,
      Int32.lt_iff_toInt_lt.mp parallelismPositive⟩
  rw [parseParameters, split_encode memoryPositive iterationsPositive parallelismPositive]
  dsimp only
  rw [loop]
  exact if_pos positive

/-- A written hash is made again exactly where one of its numbers is too low. -/
theorem needsRehash_encode (options : PasswordHashingOptions) (memoryPositive : 0 < memory)
    (iterationsPositive : 0 < iterations) (parallelismPositive : 0 < parallelism)
    (salt digest : String) :
    needsRehash options (encode memory iterations parallelism salt digest) = true ↔
      memory < options.passwordMemoryKib ∨ iterations < options.passwordIterations ∨
        parallelism < options.passwordParallelism := by
  have read :=
    parseParameters_encode memoryPositive iterationsPositive parallelismPositive salt digest
  simp only [needsRehash, read, Bool.or_eq_true, decide_eq_true_eq, Int32.lt_iff_toInt_lt, or_assoc]

end Writing

end Argon2PasswordHasher

end AuthStartpack
