import AuthStartpack.Encoding.JsonNode
import AuthStartpack.Logging.SensitiveFieldNames

/-!
Owns `AuditMetadataSerializer`: what of the metadata of an audit event is stored.
Values of secret-named properties are replaced whole. A string is masked where it
is the value of an email-named property, and not where it lies deeper below one,
so that addresses in arrays and inner objects are stored as they are.
-/

namespace AuthStartpack

open SensitiveFieldNames

namespace AuditMetadataSerializer

section Definitions

variable (casing : Casing)

/-- What replaces the value of a property that is not entered. -/
def replacement? (propertyName : String) (value : JsonNode) : Option JsonNode :=
  if isSecret casing propertyName then some (.string redactedValue)
  else match value with
    | .string text => if isEmail casing propertyName then some (.string (maskEmail text)) else none
    | _ => none

-- The names of an object differ, so that the loop over them rewrites each entry once.
mutual

def redact : JsonNode → JsonNode
  | .object properties => .object (redactProperties properties)
  | .array elements => .array (redactElements elements)
  | node => node

def redactElements : List JsonNode → List JsonNode
  | [] => []
  | element :: elements => redact element :: redactElements elements

def redactProperties : List (String × JsonNode) → List (String × JsonNode)
  | [] => []
  | (propertyName, value) :: properties =>
      (propertyName, (replacement? casing propertyName value).getD (redact value)) ::
        redactProperties properties

end

def redactProperty (propertyName : String) (value : JsonNode) : JsonNode :=
  (replacement? casing propertyName value).getD (redact casing value)

/-- The stored tree, for metadata as serialised to a tree. -/
def serialize (metadata : JsonNode) : Option JsonNode :=
  match metadata with
  | .null => none
  | node => some (redact casing node)

end Definitions

section Redaction

variable {casing : Casing}

@[simp]
theorem redact_string (text : String) : redact casing (.string text) = .string text := by
  simp [redact]

theorem redactElements_eq (elements : List JsonNode) :
    redactElements casing elements = elements.map (redact casing) := by
  induction elements with
  | nil => rfl
  | cons element elements inductionHypothesis =>
      rw [redactElements, inductionHypothesis, List.map_cons]

theorem redactProperties_eq (properties : List (String × JsonNode)) :
    redactProperties casing properties =
      properties.map fun entry => (entry.1, redactProperty casing entry.1 entry.2) := by
  induction properties with
  | nil => rfl
  | cons entry properties inductionHypothesis =>
      rw [redactProperties, inductionHypothesis, List.map_cons]
      rfl

/-! ### Along a path -/

/-- A value as it is redacted where a step leads to it. -/
def redactAt (casing : Casing) : JsonNode.Step → JsonNode → JsonNode
  | .property propertyName => redactProperty casing propertyName
  | .index _ => redact casing

theorem step?_redact (node : JsonNode) (step : JsonNode.Step) :
    (redact casing node).step? step = (node.step? step).map (redactAt casing step) := by
  cases node with
  | object properties =>
      cases step with
      | index position => rfl
      | property propertyName =>
          rw [redact, redactProperties_eq]
          exact JsonNode.lookup_map propertyName properties
  | array elements =>
      cases step with
      | property propertyName => rfl
      | index position =>
          rw [redact, redactElements_eq]
          exact List.getElem?_map
  | _ => cases step <;> rfl

/-- The step enters a secret-named property. -/
def IsSecretStep (casing : Casing) (step : JsonNode.Step) : Prop :=
  ∃ propertyName, step = .property propertyName ∧ isSecret casing propertyName = true

/-- The step enters an email-named property. -/
def IsEmailStep (casing : Casing) (step : JsonNode.Step) : Prop :=
  ∃ propertyName, step = .property propertyName ∧ isEmail casing propertyName = true

theorem redactAt_secret {step : JsonNode.Step} (secret : IsSecretStep casing step)
    (value : JsonNode) :
    redactAt casing step value = .string redactedValue := by
  obtain ⟨propertyName, rfl, isSecret⟩ := secret
  simp [redactAt, redactProperty, replacement?, isSecret]

/-- A string below an email-named property that is not secret-named. -/
theorem redactAt_email {step : JsonNode.Step} (open_ : ¬ IsSecretStep casing step)
    (email : IsEmailStep casing step) (text : String) :
    redactAt casing step (.string text) = .string (maskEmail text) := by
  obtain ⟨propertyName, rfl, isEmail⟩ := email
  have notSecret : isSecret casing propertyName = false := by
    by_contra secret
    exact open_ ⟨propertyName, rfl, by simpa using secret⟩
  simp [redactAt, redactProperty, replacement?, isEmail, notSecret]

/-- Any other value is entered. -/
theorem redactAt_entered {step : JsonNode.Step} {value : JsonNode}
    (open_ : ¬ IsSecretStep casing step)
    (kept : ¬ (IsEmailStep casing step ∧ ∃ text, value = .string text)) :
    redactAt casing step value = redact casing value := by
  cases step with
  | index position => rfl
  | property propertyName =>
      have notSecret : isSecret casing propertyName = false := by
        by_contra secret
        exact open_ ⟨propertyName, rfl, by simpa using secret⟩
      cases value with
      | string text =>
          have notEmail : isEmail casing propertyName = false := by
            by_contra email
            exact kept ⟨⟨propertyName, rfl, by simpa using email⟩, text, rfl⟩
          simp [redactAt, redactProperty, replacement?, notSecret, notEmail]
      | _ => simp [redactAt, redactProperty, replacement?, notSecret]

/-- Inside a value that is not secret, it is as if the value had been entered. -/
theorem at?_redactAt {step next : JsonNode.Step} (open_ : ¬ IsSecretStep casing step)
    (value : JsonNode) (path : List JsonNode.Step) :
    (redactAt casing step value).at? (next :: path) = (redact casing value).at? (next :: path) := by
  by_cases masked : IsEmailStep casing step ∧ ∃ text, value = .string text
  case pos =>
    obtain ⟨email, text, rfl⟩ := masked
    rw [redactAt_email open_ email, redact_string, JsonNode.at?_cons, JsonNode.at?_cons,
      JsonNode.step?_string, JsonNode.step?_string]
  case neg => rw [redactAt_entered open_ masked]

/-- What a path without secrets leads to, redacted as its last step asks. -/
theorem at?_redact {path : List JsonNode.Step} (open_ : ∀ step ∈ path, ¬ IsSecretStep casing step)
    (node : JsonNode) (last : JsonNode.Step) :
    (redact casing node).at? (path ++ [last]) =
      (node.at? (path ++ [last])).map (redactAt casing last) := by
  induction path generalizing node with
  | nil =>
      rw [List.nil_append, JsonNode.at?_cons, JsonNode.at?_cons, step?_redact]
      cases node.step? last <;> rfl
  | cons step path inductionHypothesis =>
      rw [List.cons_append, JsonNode.at?_cons, JsonNode.at?_cons, step?_redact]
      cases node.step? step with
      | none => rfl
      | some value =>
          have inside : ∀ step ∈ path, ¬ IsSecretStep casing step :=
            fun step member => open_ step (List.mem_cons_of_mem _ member)
          show (redactAt casing step value).at? (path ++ [last]) =
            (value.at? (path ++ [last])).map (redactAt casing last)
          rw [← inductionHypothesis inside]
          have enters := open_ step List.mem_cons_self
          cases path with
          | nil => exact at?_redactAt enters value []
          | cons next path => exact at?_redactAt enters value (path ++ [last])

/-- Nothing is left of a secret but the mark. -/
theorem at?_redact_secret {early late : List JsonNode.Step} {step : JsonNode.Step}
    (open_ : ∀ step ∈ early, ¬ IsSecretStep casing step) (secret : IsSecretStep casing step)
    {node value : JsonNode}
    (found : (redact casing node).at? (early ++ step :: late) = some value) :
    late = [] ∧ value = .string redactedValue := by
  have front : early ++ step :: late = (early ++ [step]) ++ late := by simp
  rw [front, JsonNode.at?_append, at?_redact open_ node step] at found
  cases entered : node.at? (early ++ [step]) with
  | none => simp [entered] at found
  | some inner =>
      rw [entered, Option.map_some, redactAt_secret secret, Option.bind_some] at found
      cases late with
      | nil => exact ⟨rfl, (Option.some.inj found).symm⟩
      | cons next late =>
          rw [JsonNode.at?_cons, JsonNode.step?_string] at found
          cases found

/-- A path is free of secrets, or there is a first one on it. -/
theorem open_or_secret (casing : Casing) (path : List JsonNode.Step) :
    (∀ step ∈ path, ¬ IsSecretStep casing step) ∨
      ∃ early step late, path = early ++ step :: late ∧ IsSecretStep casing step ∧
        ∀ step ∈ early, ¬ IsSecretStep casing step := by
  induction path with
  | nil => exact .inl fun _ member => nomatch member
  | cons first path inductionHypothesis =>
      by_cases secret : IsSecretStep casing first
      case pos => exact .inr ⟨[], first, path, rfl, secret, fun _ member => nomatch member⟩
      case neg =>
        rcases inductionHypothesis with open_ | ⟨early, step, late, rfl, isSecret, open_⟩
        · exact .inl (List.forall_mem_cons.mpr ⟨secret, open_⟩)
        · exact .inr ⟨first :: early, step, late, rfl, isSecret,
            List.forall_mem_cons.mpr ⟨secret, open_⟩⟩

/-- Every secret-named property of the output has the mark as its value. -/
theorem secret_redacted {path : List JsonNode.Step} {step : JsonNode.Step}
    (secret : IsSecretStep casing step) {node value : JsonNode}
    (found : (redact casing node).at? (path ++ [step]) = some value) :
    value = .string redactedValue := by
  rcases open_or_secret casing path with open_ | ⟨early, first, late, rfl, isSecret, open_⟩
  · exact (at?_redact_secret open_ secret found).2
  · rw [List.append_assoc, List.cons_append] at found
    exact (at?_redact_secret open_ isSecret found).2

/-- Entering a tree changes nothing that is seen from outside. -/
theorem label_redact (node : JsonNode) : (redact casing node).label = node.label := by
  cases node with
  | array elements => simp [redact, redactElements_eq, JsonNode.label]
  | object properties =>
      simp only [redact, redactProperties_eq, JsonNode.label, List.map_map]
      rfl
  | _ => simp [redact]

/-! ### Redacting twice -/

theorem redactProperty_twice (propertyName : String) {value : JsonNode}
    (settled : redact casing (redact casing value) = redact casing value) :
    redactProperty casing propertyName (redactProperty casing propertyName value) =
      redactProperty casing propertyName value := by
  let step := JsonNode.Step.property propertyName
  show redactAt casing step (redactAt casing step value) = redactAt casing step value
  by_cases secret : IsSecretStep casing step
  case pos => rw [redactAt_secret secret, redactAt_secret secret]
  case neg =>
  by_cases email : IsEmailStep casing step ∧ ∃ text, value = .string text
  case pos =>
    obtain ⟨isEmail, text, rfl⟩ := email
    rw [redactAt_email secret isEmail, redactAt_email secret isEmail, maskEmail_maskEmail]
  case neg =>
    rw [redactAt_entered secret email]
    have stays : ¬ (IsEmailStep casing step ∧ ∃ text, redact casing value = .string text) := by
      rintro ⟨isEmail, text, same⟩
      have shape : (redact casing value).label = value.label := label_redact value
      rw [same] at shape
      cases value with
      | string inner => exact email ⟨isEmail, inner, rfl⟩
      | _ => simp [JsonNode.label] at shape
    rw [redactAt_entered secret stays, settled]

mutual

theorem redact_redact : ∀ node, redact casing (redact casing node) = redact casing node
  | .object properties => by
      rw [redact, redact, redactProperties_redactProperties properties]
  | .array elements => by
      rw [redact, redact, redactElements_redactElements elements]
  | .null | .boolean _ | .number _ | .string _ => by simp [redact]

theorem redactElements_redactElements : ∀ elements,
    redactElements casing (redactElements casing elements) = redactElements casing elements
  | [] => rfl
  | element :: elements => by
      rw [redactElements, redactElements, redact_redact element,
        redactElements_redactElements elements]

theorem redactProperties_redactProperties : ∀ properties,
    redactProperties casing (redactProperties casing properties) =
      redactProperties casing properties
  | [] => rfl
  | (propertyName, value) :: properties => by
      rw [redactProperties, redactProperties, redactProperties_redactProperties properties]
      have settled := redactProperty_twice propertyName (redact_redact value)
      exact congrArg (fun redacted => (propertyName, redacted) :: _) settled

end

theorem serialize_eq_some {metadata output : JsonNode} :
    serialize casing metadata = some output ↔ metadata ≠ .null ∧
      redact casing metadata = output := by
  cases metadata <;> simp [serialize]

/-! ### What is stored -/

/-- The path ends at a string that is the value of an email-named property. -/
def EndsAtAddress (casing : Casing) (node : JsonNode) (path : List JsonNode.Step) : Prop :=
  ∃ above step text, path = above ++ [step] ∧ IsEmailStep casing step ∧
    node.at? path = some (.string text)

/-- Away from secrets and addresses the output looks like the input. -/
theorem label_at?_redact {path : List JsonNode.Step} {node : JsonNode}
    (open_ : ∀ step ∈ path, ¬ IsSecretStep casing step) (shown : ¬ EndsAtAddress casing node path) :
    ((redact casing node).at? path).map JsonNode.label = (node.at? path).map JsonNode.label := by
  rcases List.eq_nil_or_concat path with rfl | ⟨above, step, rfl⟩
  · exact congrArg some (label_redact node)
  · rw [List.concat_eq_append] at open_ shown ⊢
    obtain ⟨aboveOpen, stepOpen⟩ := List.forall_mem_append.mp open_
    rw [at?_redact aboveOpen]
    cases found : node.at? (above ++ [step]) with
    | none => rfl
    | some value =>
        have kept : ¬ (IsEmailStep casing step ∧ ∃ text, value = .string text) := by
          rintro ⟨email, text, rfl⟩
          exact shown ⟨above, step, text, rfl, email, found⟩
        rw [Option.map_some, Option.map_some, Option.map_some,
          redactAt_entered (stepOpen step List.mem_cons_self) kept, label_redact]

/-- Secrets are replaced, addresses aside everything else is as in the input, and a second
redaction changes nothing. -/
theorem serialize_redacts {metadata output : JsonNode}
    (stored : serialize casing metadata = some output) :
    (∀ path propertyName value, output.at? (path ++ [.property propertyName]) = some value →
      isSecret casing propertyName = true → value = .string "[redacted]") ∧
    (∀ path, (∀ step ∈ path, ¬ IsSecretStep casing step) → ¬ EndsAtAddress casing metadata path →
      (output.at? path).map JsonNode.label = (metadata.at? path).map JsonNode.label) ∧
    serialize casing output = some output := by
  obtain ⟨shown, rfl⟩ := serialize_eq_some.mp stored
  refine ⟨?_, ?_, ?_⟩
  · intro path propertyName value found secret
    exact secret_redacted ⟨propertyName, rfl, secret⟩ found
  · intro path open_ address
    exact label_at?_redact open_ address
  · refine serialize_eq_some.mpr ⟨?_, redact_redact metadata⟩
    intro null
    have shape : (redact casing metadata).label = metadata.label := label_redact metadata
    rw [null] at shape
    cases metadata with
    | null => exact shown rfl
    | _ => simp [JsonNode.label] at shape

/-- Secrets at two depths and an address. -/
def recordedLogin : JsonNode :=
  .object [("email", .string "ada@example.test"), ("attempt", .number "3"),
    ("sessions", .array [.object [("refreshTokens", .array [.null]), ("id", .number "1")]])]

theorem serialize_redacts_sample :
    serialize .ascii recordedLogin = some (redact .ascii recordedLogin) ∧
      ((redact .ascii recordedLogin).at?
        [.property "sessions", .index 0, .property "refreshTokens"]).map
        JsonNode.label = some (.string "[redacted]") ∧
      serialize .ascii (redact .ascii recordedLogin) = some (redact .ascii recordedLogin) := by
  have stored : serialize .ascii recordedLogin = some (redact .ascii recordedLogin) := rfl
  exact ⟨stored, by decide +kernel, (serialize_redacts stored).2.2⟩

/-! ### Addresses -/

/-- Every string below an email-named property is masked or redacted. -/
def MasksAddresses (casing : Casing) (metadata output : JsonNode) : Prop :=
  ∀ path text value, metadata.at? path = some (.string text) →
    (∃ step ∈ path, IsEmailStep casing step) → output.at? path = some value →
      value = .string (maskEmail text) ∨ value = .string redactedValue

/-- Every string below an email-named property is the value of one, or lies below a secret-named
one, or is a mask already. -/
def AddressesAreValues (casing : Casing) (metadata : JsonNode) : Prop :=
  ∀ path text, metadata.at? path = some (.string text) → (∃ step ∈ path, IsEmailStep casing step) →
    EndsAtAddress casing metadata path ∨ (∃ step ∈ path, IsSecretStep casing step) ∨
      maskEmail text = text

/-- A string away from secrets, as it is stored. -/
theorem at?_redact_text {path : List JsonNode.Step} {metadata : JsonNode} {text : String}
    (open_ : ∀ step ∈ path, ¬ IsSecretStep casing step)
    (found : metadata.at? path = some (.string text)) :
    EndsAtAddress casing metadata path ∧
        (redact casing metadata).at? path = some (.string (maskEmail text)) ∨
      ¬ EndsAtAddress casing metadata path ∧
        (redact casing metadata).at? path = some (.string text) := by
  rcases List.eq_nil_or_concat path with rfl | ⟨above, step, rfl⟩
  · right
    refine ⟨?_, ?_⟩
    · rintro ⟨above, step, _, impossible, -⟩
      exact List.append_ne_nil_of_right_ne_nil above (List.cons_ne_nil step []) impossible.symm
    · rw [JsonNode.at?_nil] at found ⊢
      rw [Option.some.inj found, redact_string]
  · rw [List.concat_eq_append] at open_ found ⊢
    obtain ⟨aboveOpen, stepOpen⟩ := List.forall_mem_append.mp open_
    have enters := stepOpen step List.mem_cons_self
    rw [at?_redact aboveOpen, found, Option.map_some]
    by_cases email : IsEmailStep casing step
    case pos =>
      left
      exact ⟨⟨above, step, text, rfl, email, found⟩, by rw [redactAt_email enters email]⟩
    case neg =>
      right
      refine ⟨?_, ?_⟩
      · rintro ⟨other, last, _, same, isEmail, -⟩
        obtain ⟨-, equal⟩ := List.append_inj' same rfl
        exact email ((List.cons.inj equal).1 ▸ isEmail)
      · rw [redactAt_entered enters fun both => email both.1, redact_string]

/-- Exactly when the addresses are values of email-named properties, all of them are masked. -/
theorem masksAddresses_iff {metadata output : JsonNode}
    (stored : serialize casing metadata = some output) :
    MasksAddresses casing metadata output ↔ AddressesAreValues casing metadata := by
  obtain ⟨-, rfl⟩ := serialize_eq_some.mp stored
  constructor
  · intro masks path text found email
    rcases open_or_secret casing path with open_ | ⟨early, step, late, rfl, secret, -⟩
    · rcases at?_redact_text open_ found with ⟨ends, -⟩ | ⟨-, reached⟩
      · exact .inl ends
      · right
        right
        rcases masks path text _ found email reached with masked | redacted
        · exact (JsonNode.string.inj masked).symm
        · rw [JsonNode.string.inj redacted]
          exact maskEmail_redactedValue
    · exact .inr (.inl ⟨step, by simp, secret⟩)
  · intro values path text value found email reached
    rcases open_or_secret casing path with open_ | ⟨early, step, late, rfl, secret, open_⟩
    · rcases at?_redact_text open_ found with ⟨-, masked⟩ | ⟨deeper, kept⟩
      · exact .inl (Option.some.inj (reached.symm.trans masked))
      · rcases values path text found email with ends | ⟨step, member, secret⟩ | mask
        · exact absurd ends deeper
        · exact absurd secret (open_ step member)
        · rw [mask]
          exact .inl (Option.some.inj (reached.symm.trans kept))
    · exact .inr (at?_redact_secret open_ secret reached).2

/-- Addresses in an array and in an inner object. -/
def listedRecipients : JsonNode :=
  .object [("emails", .array [.string "ada@example.test"]),
    ("emailContact", .object [("address", .string "grace@example.test")])]

theorem masksAddresses_iff_sample :
    MasksAddresses .ascii listedRecipients (redact .ascii listedRecipients) ↔
      AddressesAreValues .ascii listedRecipients :=
  masksAddresses_iff rfl

/-- The address in the array is stored as it is. -/
theorem address_survives : ∃ metadata output, serialize .ascii metadata = some output ∧
    ¬ MasksAddresses .ascii metadata output := by
  refine ⟨listedRecipients, redact .ascii listedRecipients, rfl, ?_⟩
  intro masks
  have stored : ((redact .ascii listedRecipients).at? [.property "emails", .index 0]).map
      JsonNode.label = some (.string "ada@example.test") := by decide +kernel
  obtain ⟨value, reached, shown⟩ := Option.map_eq_some_iff.mp stored
  have email : IsEmailStep .ascii (.property "emails") := ⟨"emails", rfl, by decide +kernel⟩
  have masked := masks [.property "emails", .index 0] "ada@example.test" value rfl
    ⟨_, List.mem_cons_self, email⟩ reached
  rcases masked with rfl | rfl
  · revert shown
    decide +kernel
  · revert shown
    decide +kernel

end Redaction

end AuditMetadataSerializer

end AuthStartpack
