import Mathlib

/-!
Owns one key of a Redis server, with the commands on counters and hashes: what a
command finds at a millisecond of server time, and what it leaves. Time stands
still while a script runs, so that a script decides once whether its key has
expired.

The module names nothing of the modelled repository.
-/

namespace AuthStartpack.Redis

variable {α : Type}

/-- A key that exists, with the millisecond at which its time to live ends. -/
structure Key (α : Type) where
  value : α
  expiresAt : Option ℕ
deriving DecidableEq, Repr

/-- The key that a command at `now` finds. The server documents that an expired key may outlive its
time to live by zero to one milliseconds, which is `lag`. -/
def find (lag now : ℕ) (key : Option (Key α)) : Option (Key α) :=
  key.filter fun key => key.expiresAt.all fun expiresAt => now < expiresAt + lag

/-- `PEXPIRE`, which does nothing where there is no key. -/
def pexpire (now milliseconds : ℕ) (key : Option (Key α)) : Option (Key α) :=
  key.map fun key => { key with expiresAt := some (now + milliseconds) }

/-- `PTTL`: `-2` without a key, `-1` without a time to live, and never negative otherwise. -/
def pttl (now : ℕ) : Option (Key α) → ℤ
  | none => -2
  | some ⟨_, none⟩ => -1
  | some ⟨_, some expiresAt⟩ => (expiresAt - now : ℕ)

section Expiry

variable {lag now later : ℕ} {key : Option (Key α)} {found : Key α}

theorem find_some :
    find lag now key = some found ↔
      key = some found ∧ ∀ expiresAt, found.expiresAt = some expiresAt → now < expiresAt + lag := by
  unfold find
  rw [Option.filter_eq_some_iff]
  apply and_congr_right
  intro _
  cases found.expiresAt with
  | none => simp
  | some expiresAt => simp

@[simp]
theorem find_none : find lag now (none : Option (Key α)) = none := rfl

/-- A key that is gone stays gone, and one that is there has not changed. -/
theorem find_later (lag : ℕ) (key : Option (Key α)) (le : now ≤ later) :
    find lag later key = none ∨ find lag later key = find lag now key := by
  cases equation : find lag later key with
  | none => exact .inl rfl
  | some found =>
      obtain ⟨rfl, alive⟩ := find_some.mp equation
      refine .inr (find_some.mpr ⟨rfl, ?_⟩).symm
      intro expiresAt carries
      have := alive expiresAt carries
      omega

theorem pexpire_some {milliseconds : ℕ} :
    pexpire now milliseconds key = some found ↔
      ∃ old, key = some old ∧ found = ⟨old.value, some (now + milliseconds)⟩ := by
  unfold pexpire
  rw [Option.map_eq_some_iff]
  constructor
  · rintro ⟨old, rfl, rfl⟩
    exact ⟨old, rfl, rfl⟩
  · rintro ⟨old, rfl, rfl⟩
    exact ⟨old, rfl, rfl⟩

theorem pttl_some {expiresAt : ℕ} (carries : found.expiresAt = some expiresAt) :
    pttl now (some found) = (expiresAt - now : ℕ) := by
  obtain ⟨value, expiry⟩ := found
  cases carries
  rfl

end Expiry

/-! ### Counters -/

/-- `GET` of a counter. -/
def get (key : Option (Key ℕ)) : Option ℕ := key.map Key.value

/-- `INCRBY`, which keeps a time to live and gives none to the key that it creates. -/
def incrBy (amount : ℕ) : Option (Key ℕ) → Key ℕ
  | none => ⟨amount, none⟩
  | some key => { key with value := key.value + amount }

/-! ### Hashes -/

/-- The fields of a hash with their counters; a hash without fields does not exist. -/
abbrev Hash : Type := List (ℕ × ℕ)

def hgetall (key : Option (Key Hash)) : Hash := (key.map Key.value).getD []

def hdel (field : ℕ) (key : Option (Key Hash)) : Option (Key Hash) :=
  match (hgetall key).filter (·.1 ≠ field) with
  | [] => none
  | fields => key.map fun key => { key with value := fields }

/-- `HINCRBY` on the fields. -/
def increment (field amount : ℕ) : Hash → Hash
  | [] => [(field, amount)]
  | (name, count) :: rest =>
      if name = field then (name, count + amount) :: rest
      else (name, count) :: increment field amount rest

def hincrby (field amount : ℕ) (key : Option (Key Hash)) : Option (Key Hash) :=
  some ⟨increment field amount (hgetall key), key.bind Key.expiresAt⟩

/-- The sum of the counters of all fields. -/
def Hash.total (fields : Hash) : ℕ := (fields.map Prod.snd).sum

/-- The sum of the counters of the fields from `first` on. -/
def Hash.totalFrom (first : ℕ) (fields : Hash) : ℕ := Hash.total (fields.filter (first ≤ ·.1))

section Hashes

variable {field amount first now milliseconds : ℕ} {key : Option (Key Hash)} {fields : Hash}

@[simp]
theorem hgetall_none : hgetall none = [] := rfl

@[simp]
theorem hgetall_some (key : Key Hash) : hgetall (some key) = key.value := rfl

@[simp]
theorem hgetall_pexpire : hgetall (pexpire now milliseconds key) = hgetall key := by
  cases key <;> rfl

@[simp]
theorem hgetall_hdel : hgetall (hdel field key) = (hgetall key).filter (·.1 ≠ field) := by
  unfold hdel
  cases equation : (hgetall key).filter (·.1 ≠ field) with
  | nil => rfl
  | cons head tail =>
      cases key with
      | none => cases equation
      | some key => rfl

@[simp]
theorem hgetall_hincrby :
    hgetall (hincrby field amount key) = increment field amount (hgetall key) := rfl

@[simp]
theorem Hash.total_nil : Hash.total [] = 0 := rfl

@[simp]
theorem Hash.total_cons (head : ℕ × ℕ) (tail : Hash) :
    Hash.total (head :: tail) = head.2 + Hash.total tail := by
  simp [Hash.total]

theorem Hash.totalFrom_cons (head : ℕ × ℕ) (tail : Hash) :
    Hash.totalFrom first (head :: tail) =
      (if first ≤ head.1 then head.2 else 0) + Hash.totalFrom first tail := by
  unfold Hash.totalFrom
  by_cases counted : first ≤ head.1
  · simp [counted]
  · simp [counted]

theorem Hash.totalFrom_le (first : ℕ) (fields : Hash) :
    Hash.totalFrom first fields ≤ Hash.total fields := by
  induction fields with
  | nil => exact Nat.le_refl 0
  | cons head tail inductionHypothesis =>
      rw [Hash.totalFrom_cons, Hash.total_cons]
      split <;> omega

/-- A field below `first` with a positive counter is missing from the sum. -/
theorem Hash.totalFrom_lt (positive : ∀ entry ∈ fields, 0 < entry.2)
    (below : ∃ entry ∈ fields, entry.1 < first) :
      Hash.totalFrom first fields < Hash.total fields := by
  induction fields with
  | nil => simp at below
  | cons head tail inductionHypothesis =>
      rw [Hash.totalFrom_cons, Hash.total_cons]
      have headPositive : 0 < head.2 := positive head List.mem_cons_self
      by_cases counted : first ≤ head.1
      · obtain ⟨entry, member, lt⟩ := below
        have rest : ∃ entry ∈ tail, entry.1 < first := by
          rcases List.mem_cons.mp member with rfl | tailMember
          · omega
          · exact ⟨entry, tailMember, lt⟩
        have := inductionHypothesis (fun entry member => positive entry (.tail _ member)) rest
        rw [if_pos counted]
        omega
      · have := Hash.totalFrom_le first tail
        rw [if_neg counted]
        omega

theorem Hash.totalFrom_increment :
    Hash.totalFrom first (increment field amount fields) =
      Hash.totalFrom first fields + if first ≤ field then amount else 0 := by
  induction fields with
  | nil =>
      rw [increment, Hash.totalFrom_cons]
      simp [Hash.totalFrom]
  | cons head tail inductionHypothesis =>
      unfold increment
      by_cases same : head.1 = field
      · rw [if_pos same, Hash.totalFrom_cons, Hash.totalFrom_cons, same]
        split <;> omega
      · rw [if_neg same, Hash.totalFrom_cons, Hash.totalFrom_cons, inductionHypothesis]
        exact (Nat.add_assoc _ _ _).symm

theorem Hash.total_increment :
    Hash.total (increment field amount fields) = Hash.total fields + amount := by
  have every : ∀ fields : Hash, Hash.totalFrom 0 fields = Hash.total fields := by
    intro fields
    simp [Hash.totalFrom]
  rw [← every, Hash.totalFrom_increment, every, if_pos (Nat.zero_le field)]

/-- A field of an incremented hash is the incremented one or an old one. -/
theorem increment_fields {p : ℕ × ℕ → Prop} (old : ∀ entry ∈ fields, p entry)
    (created : p (field, amount)) (raised : ∀ count, p (field, count) → p (field, count + amount)) :
    ∀ entry ∈ increment field amount fields, p entry := by
  induction fields with
  | nil =>
      intro entry member
      rw [increment, List.mem_singleton] at member
      exact member ▸ created
  | cons head tail inductionHypothesis =>
      obtain ⟨name, count⟩ := head
      have tailOld := inductionHypothesis fun entry member => old entry (.tail _ member)
      intro entry member
      unfold increment at member
      by_cases same : name = field
      · subst same
        rw [if_pos rfl] at member
        rcases List.mem_cons.mp member with rfl | rest
        · exact raised count (old _ List.mem_cons_self)
        · exact old entry (.tail _ rest)
      · rw [if_neg same] at member
        rcases List.mem_cons.mp member with rfl | rest
        · exact old _ List.mem_cons_self
        · exact tailOld entry rest

end Hashes

end AuthStartpack.Redis
