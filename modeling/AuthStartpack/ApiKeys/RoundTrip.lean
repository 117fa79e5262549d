import Mathlib
import AuthStartpack.Data.Alone
import AuthStartpack.Handlers.ApiKeyAuthenticationHandler
import AuthStartpack.Program.Sequential

/-!
Owns the round trip of API keys: what `CreateAsync` hands out is what the handler
takes apart. A prefix consists of letters and digits, so the first two
underscores of a key are its separators, whatever the secret contains.
-/

namespace AuthStartpack

/-- Twelve ASCII letters or digits. -/
structure IsKeyPrefix (text : String) : Prop where
  length : text.toList.length = 12
  alphanumeric : ∀ character ∈ text.toList, character.isAlphanum = true

theorem Undisturbed.apiKeys {before after : State} (same : Undisturbed before after) :
    after.store.db.apiKeys = before.store.db.apiKeys := by
  obtain ⟨auditLogEntries, equal⟩ := same.store.db
  rw [equal]

namespace ApiKeyService

/-! ### The prefix -/

section Prefix

variable (services : Services)

/-- The letters and digits of so many tokens, from this one on. -/
def supplied (first : ℕ) : ℕ → List Char
  | 0 => []
  | rounds + 1 =>
      (services.tokenGenerator.newOpaqueToken first).toList.filter Char.isAlphanum ++
        supplied (first + 1) rounds

variable {services} {admits : State → ℕ → Input → List Event → Prop} {call : ℕ}

/-- `CreatePrefix` takes the first letters and digits of the tokens, if there are enough. -/
theorem createPrefix_wp {collected : List Char} {rounds : ℕ} {state : State}
    {post : Except AppException String → State → Prop} (short : collected.length ≤ 12)
    (made : ∀ later, Undisturbed state later →
      12 ≤ (collected ++ supplied services state.store.supply rounds).length →
      post
        (.ok (String.ofList ((collected ++ supplied services state.store.supply rounds).take 12)))
        later)
    (spent : ∀ later, (collected ++ supplied services state.store.supply rounds).length < 12 →
      post (.error .operationCanceled) later) :
    (createPrefix services collected rounds).wp
      (.alone admits fun _ _ => True) call post state := by
  induction rounds generalizing collected state with
  | zero =>
      rw [supplied, List.append_nil] at made spent
      unfold createPrefix
      by_cases missing : collected.length < prefixLength
      case pos =>
        rw [if_pos missing]
        exact spent state missing
      case neg =>
        have full : 12 ≤ collected.length := Nat.le_of_not_lt missing
        rw [if_neg missing]
        have all := made state (.refl state) full
        rw [List.take_of_length_le short] at all
        exact all
  | succ rounds inductionHypothesis =>
      unfold createPrefix
      by_cases missing : collected.length < prefixLength
      case neg =>
        have full : 12 ≤ collected.length := Nat.le_of_not_lt missing
        rw [if_neg missing]
        have enough :
            12 ≤ (collected ++ supplied services state.store.supply (rounds + 1)).length := by
          rw [List.length_append]
          omega
        have all := made state (.refl state) enough
        rw [List.take_append_of_le_length full, List.take_of_length_le short] at all
        exact all
      case pos =>
      rw [if_pos missing, Program.wp_bind]
      apply alone_draw
      intro input _
      rw [Program.andThen_ok]
      let token := (services.tokenGenerator.newOpaqueToken state.store.supply).toList.filter
        Char.isAlphanum
      let rest := supplied services (state.store.supply + 1) rounds
      -- Cutting off at twelve characters early is cutting off in the end.
      have cut : (collect collected (services.tokenGenerator.newOpaqueToken state.store.supply) ++
          rest).take 12 = (collected ++ (token ++ rest)).take 12 := by
        rw [← List.append_assoc]
        show ((collected ++ token).take 12 ++ rest).take 12 = (collected ++ token ++ rest).take 12
        rcases Nat.le_total (collected ++ token).length 12 with less | more
        · rw [List.take_of_length_le less]
        · have all : 12 ≤ ((collected ++ token).take 12).length := by
            rw [List.length_take]
            omega
          rw [List.take_append_of_le_length all, List.take_append_of_le_length more, List.take_take,
            Nat.min_self]
      have lengths : (collect collected
          (services.tokenGenerator.newOpaqueToken state.store.supply) ++ rest).length < 12 ↔
            (collected ++ (token ++ rest)).length < 12 := by
        have sizes := congrArg List.length cut
        rw [List.length_take, List.length_take] at sizes
        omega
      have drawn : Undisturbed state (state.drew input) :=
        ⟨⟨⟨_, rfl⟩, Nat.le_succ _, rfl⟩, rfl⟩
      apply inductionHypothesis
      · exact (List.length_take_le _ _)
      · intro later kept enough
        have supplies : 12 ≤ (collected ++ (token ++ rest)).length :=
          Nat.le_of_not_lt fun few => Nat.not_lt.mpr enough (lengths.mpr few)
        show post (.ok (String.ofList ((collect collected
          (services.tokenGenerator.newOpaqueToken state.store.supply) ++ rest).take 12))) later
        rw [cut]
        exact made later (drawn.trans kept) supplies
      · intro later few
        exact spent later (lengths.mp few)

theorem supplied_alphanumeric (first rounds : ℕ) :
    ∀ character ∈ supplied services first rounds, character.isAlphanum = true := by
  induction rounds generalizing first with
  | zero => exact fun _ member => nomatch member
  | succ rounds inductionHypothesis =>
      intro character member
      rcases List.mem_append.mp member with here | later
      · exact (List.mem_filter.mp here).2
      · exact inductionHypothesis _ character later

theorem isKeyPrefix_take {first rounds : ℕ}
    (enough : 12 ≤ ([] ++ supplied services first rounds).length) :
    IsKeyPrefix (String.ofList (([] ++ supplied services first rounds).take 12)) where
  length := by
    rw [String.toList_ofList, List.length_take]
    omega
  alphanumeric := by
    intro character member
    rw [String.toList_ofList] at member
    exact supplied_alphanumeric first rounds character (List.mem_of_mem_take member)

end Prefix

/-! ### Creation -/

section Creation

variable {services : Services} {admits : State → ℕ → Input → List Event → Prop} {call : ℕ}

/-- What a key is made of, and the row that is stored for it. -/
structure StoredKey (services : Services) (response : CreateApiKeyResponse)
    (keyPrefix secret : String)
    (row : ApiKey) : Prop where
  text : response.key = keyText keyPrefix secret
  isKeyPrefix : IsKeyPrefix keyPrefix
  random : ∃ number, secret = services.tokenGenerator.newOpaqueToken number
  id : row.id = response.id
  keyPrefix : row.keyPrefix = keyPrefix
  keyHash : ∃ salt, row.keyHash = services.passwordHasher.hashSecret secret salt

theorem createAsync_stores (rounds : ℕ) (userId : Guid) (request : CreateApiKeyRequest)
    (state : State) :
    (createAsync services rounds userId request).wp (.alone admits fun _ _ => True) call
      (fun outcome after => ∀ response, outcome = .ok response →
        ∃ keyPrefix secret, ∃ row ∈ after.store.db.apiKeys,
          StoredKey services response keyPrefix secret row) state := by
  have calm := Calm.alone admits call
  simp only [createAsync, Program.wp_bind]
  refine Action.calm_query calm ?_
  intro listed _
  rw [Program.andThen_ok]
  split
  · rintro _ ⟨⟩
  rw [Program.wp_bind]
  refine createPrefix_wp (Nat.zero_le 12) ?_ (by rintro _ _ _ ⟨⟩)
  intro made _ enough
  have isPrefix := isKeyPrefix_take enough
  generalize String.ofList _ = keyPrefix at isPrefix ⊢
  rw [Program.andThen_ok, Program.wp_bind]
  apply alone_draw
  intro _ _
  rw [Program.andThen_ok, Program.wp_bind]
  apply alone_draw
  intro _ _
  rw [Program.andThen_ok, Program.wp_bind]
  apply alone_draw
  intro _ _
  rw [Program.andThen_ok, Program.wp_bind]
  apply alone_saveChanges
  · intro input db saved _
    obtain ⟨-, rfl⟩ := Db.insertApiKey_eq_ok.mp saved
    rw [Program.andThen_ok, Program.wp_bind]
    refine SecurityNotificationService.wp_notifyAsync calm ?_
    intro outcome after later
    cases outcome with
    | error exception =>
        rw [Program.andThen_error]
        rintro _ ⟨⟩
    | ok _ =>
        rw [Program.andThen_ok]
        intro response returned
        cases returned
        rw [later.apiKeys]
        refine ⟨keyPrefix, services.tokenGenerator.newOpaqueToken made.store.supply, _,
          List.mem_append_right _ List.mem_cons_self, ?_⟩
        exact ⟨rfl, isPrefix, ⟨_, rfl⟩, rfl, rfl, ⟨_, rfl⟩⟩
  · intro _ exception _ _
    rintro _ ⟨⟩

end Creation

end ApiKeyService

/-! ### Presentation -/

theorem isWhiteSpace_of_base64url {character : Char} (member : character ∈ Base64Url.alphabet) :
    isWhiteSpace character = false := by
  have all : ∀ digit ∈ Base64Url.alphabet, isWhiteSpace digit = false :=
    List.all_iff_forall_prop.mp (by decide +kernel)
  exact all character member

theorem isWhiteSpace_of_alphanumeric {character : Char}
    (alphanumeric : character.isAlphanum = true) :
    isWhiteSpace character = false := by
  have bounds : 48 ≤ character.toNat ∧ character.toNat ≤ 122 := by
    simp only [Char.isAlphanum, Char.isAlpha, Char.isUpper, Char.isLower, Char.isDigit, ge_iff_le,
      Bool.or_eq_true, Bool.and_eq_true, decide_eq_true_eq, UInt32.le_iff_toNat_le] at alphanumeric
    rcases alphanumeric with (⟨low, high⟩ | ⟨low, high⟩) | ⟨low, high⟩
    · exact ⟨Nat.le_trans (by decide) low, Nat.le_trans high (by decide)⟩
    · exact ⟨Nat.le_trans (by decide) low, Nat.le_trans high (by decide)⟩
    · exact ⟨low, Nat.le_trans high (by decide)⟩
  unfold isWhiteSpace
  generalize character.toNat = code at bounds
  obtain ⟨low, high⟩ := bounds
  interval_cases code <;> rfl

theorem startsWithIgnoreCase_append (start rest : String) :
    startsWithIgnoreCase start (start ++ rest) = true := by
  apply decide_eq_true
  rw [String.toList_append, List.take_left, String.ofList_toList]

namespace ApiKeyAuthenticationHandler

section Parsing

variable {keyPrefix secret : String}

theorem split_keyText (free : '_' ∉ keyPrefix.toList) :
    splitAtMost '_' 3 (ApiKeyService.keyText keyPrefix secret) = ["ak", keyPrefix, secret] := by
  have text : ApiKeyService.keyText keyPrefix secret =
      "ak" ++ String.singleton '_' ++ (keyPrefix ++ String.singleton '_' ++ secret) := by
    apply String.toList_injective
    simp [ApiKeyService.keyText]
  have marker : '_' ∉ "ak".toList := by decide
  rw [text, splitAtMost_append marker, splitAtMost_append free]
  rfl

/-- The header that presents a key, with the name of the scheme or without. -/
inductive Presents (key : String) : String → Prop
  | named : Presents key ("ApiKey " ++ key)
  | bare : Presents key key

theorem tryReadCredential_keyText {header : String}
    (dark : ∀ character ∈ (ApiKeyService.keyText keyPrefix secret).toList,
      isWhiteSpace character = false)
    (presents : Presents (ApiKeyService.keyText keyPrefix secret) header) :
    tryReadCredential (.authorizedBy header) = some (ApiKeyService.keyText keyPrefix secret) := by
  have key : (ApiKeyService.keyText keyPrefix secret).toList =
      'a' :: 'k' :: '_' :: (keyPrefix.toList ++ '_' :: secret.toList) := by
    simp [ApiKeyService.keyText]
  have marked : keyMarker.toList <+: (ApiKeyService.keyText keyPrefix secret).toList := by
    rw [key]
    exact ⟨keyPrefix.toList ++ '_' :: secret.toList, rfl⟩
  cases presents with
  | named =>
      have shown : "ApiKey " ++ ApiKeyService.keyText keyPrefix secret ≠ "" := by
        intro empty
        have := congrArg String.toList empty
        simp at this
      have starts : startsWithIgnoreCase (schemeName ++ " ")
          ("ApiKey " ++ ApiKeyService.keyText keyPrefix secret) = true :=
        startsWithIgnoreCase_append "ApiKey " _
      have rest : String.ofList (("ApiKey " ++ ApiKeyService.keyText keyPrefix secret).toList.drop
          (schemeName.toList.length + 1)) = ApiKeyService.keyText keyPrefix secret := by
        have length : schemeName.toList.length + 1 = "ApiKey ".toList.length := by decide
        rw [length, String.toList_append, List.drop_left, String.ofList_toList]
      simp only [tryReadCredential, HttpRequest.authorizedBy_header, if_neg shown,
        if_pos starts, rest,
        if_pos marked, trim_eq_self dark]
  | bare =>
      have shown : ApiKeyService.keyText keyPrefix secret ≠ "" := by
        intro empty
        have := congrArg String.toList empty
        simp [key] at this
      have starts : startsWithIgnoreCase (schemeName ++ " ")
          (ApiKeyService.keyText keyPrefix secret) = false := by
        have letters : (schemeName ++ " ").toList.map Char.toUpper =
          ['A', 'P', 'I', 'K', 'E', 'Y', ' '] := by decide
        have length : (schemeName ++ " ").toList.length = 7 := by decide
        apply decide_eq_false
        rw [letters, length, key, String.toList_ofList]
        intro same
        have second := congrArg (·[1]?) same
        revert second
        simp
      simp only [tryReadCredential, HttpRequest.authorizedBy_header, if_neg shown, starts,
        Bool.false_eq_true, if_false, if_pos marked, trim_eq_self dark]

end Parsing

/-! ### Verification -/

section Verification

variable {services : Services} {admits : State → ℕ → Input → List Event → Prop} {call : ℕ}

/-- The answer to a key whose prefix selects this row and whose secret verifies. -/
def answer (now : Instant) (row : ApiKey) (roles : List String) : AuthenticateResult :=
  if IsDead now row then .fail "Invalid API key." else .success (principal row roles)

/-- A key that is taken apart into the prefix of a row and a secret of it is answered by the row. -/
theorem handleAuthenticateAsync_answers {request : HttpRequest}
    {presented scheme keyPrefix secret : String}
    {row : ApiKey} {state : State} (read : tryReadCredential request = some presented)
    (parts : splitAtMost '_' 3 presented = [scheme, keyPrefix, secret])
    (found : findKey keyPrefix state.store.db = .ok (some row))
    (verifies : services.passwordHasher.verify secret row.keyHash = true) :
    (handleAuthenticateAsync services request).wp (.alone admits fun _ _ => True) call
      (fun outcome _ => ∃ now roles, outcome = .ok (answer now row roles)) state := by
  have calm := Calm.alone admits call
  simp only [handleAuthenticateAsync, read, parts, Program.wp_bind]
  apply alone_utcNow
  intro input _
  rw [Program.andThen_ok, Program.wp_bind]
  apply alone_queryOrThrow
  intro _ _
  rw [Shared.observed_store, found, Program.andThen_ok]
  by_cases dead : IsDead input.now row
  case pos =>
    simp only [if_pos dead]
    exact ⟨input.now, [], by rw [answer, if_pos dead]⟩
  case neg =>
    simp only [if_neg dead, verifies, Bool.not_true, Bool.false_eq_true, if_false, Program.wp_bind]
    refine Action.wp_execute calm ?_
    intro current _ _ _
    refine ⟨trivial, ?_⟩
    rw [Program.andThen_ok, Program.wp_bind]
    refine Action.calm_query calm ?_
    intro later _
    rw [Program.andThen_ok]
    exact ⟨input.now, _, by rw [answer, if_neg dead]⟩

end Verification

end ApiKeyAuthenticationHandler

/-! ### From creation to authentication -/

section RoundTrip

open ApiKeyService ApiKeyAuthenticationHandler

variable {services : Services}

/-- The prefix of a table without two rows of one prefix selects the row. -/
theorem findKey_of_unique {db : Db} {row : ApiKey}
    (unique : Table.Keyed ApiKey.keyPrefix db.apiKeys)
    (member : row ∈ db.apiKeys) : findKey row.keyPrefix db = .ok (some row) := by
  rw [findKey, unique.filter_key member]
  rfl

/-- Every prefix is twelve letters or digits once the tokens supply them, and every key that is
created is taken apart into the prefix and the secret it was made of: wherever its row is stored
later, the prefix selects the row and no other, the secret verifies against its hash, and the
handler answers with it. -/
theorem apiKey_roundTrip
    (base64url : ∀ number, ∀ character ∈ (services.tokenGenerator.newOpaqueToken number).toList,
      character ∈ Base64Url.alphabet)
    (verifies : ∀ secret salt,
      services.passwordHasher.verify secret
        (services.passwordHasher.hashSecret secret salt) = true) :
    (∀ rounds call before outcome after,
      12 ≤ (supplied services before.store.supply rounds).length →
      (createPrefix services [] rounds).Completes (fun _ _ _ _ => True) call before outcome after →
        ∃ keyPrefix, outcome = .ok keyPrefix ∧ IsKeyPrefix keyPrefix) ∧
    ∀ rounds userId request call before response after,
      (createAsync services rounds userId request).Completes (fun _ _ _ _ => True) call before
        (.ok response) after →
      ∃ keyPrefix secret, ∃ row ∈ after.store.db.apiKeys,
        StoredKey services response keyPrefix secret row ∧
        ∀ header, Presents response.key header →
          tryReadCredential (.authorizedBy header) = some response.key ∧
          splitAtMost '_' 3 response.key = ["ak", keyPrefix, secret] ∧
          ∀ (later : State) (stored : ApiKey), Table.Keyed ApiKey.keyPrefix later.store.db.apiKeys →
            stored ∈ later.store.db.apiKeys → stored.keyPrefix = row.keyPrefix →
            stored.keyHash = row.keyHash →
            findKey keyPrefix later.store.db = .ok (some stored) ∧
            services.passwordHasher.verify secret stored.keyHash = true ∧
            ∀ call outcome final,
              (handleAuthenticateAsync services (.authorizedBy header)).Completes
                (fun _ _ _ _ => True)
                call later outcome final →
              ∃ now roles, outcome = .ok (answer now stored roles) := by
  constructor
  · intro rounds call before outcome after enough completes
    have made : (createPrefix services [] rounds).wp
        (.alone (fun _ _ _ _ => True) fun _ _ => True) call
        (fun outcome _ => ∃ keyPrefix, outcome = .ok keyPrefix ∧ IsKeyPrefix keyPrefix) before := by
      refine createPrefix_wp (Nat.zero_le 12) ?_ ?_
      · intro _ _ supplies
        exact ⟨_, rfl, isKeyPrefix_take supplies⟩
      · intro _ few
        exact absurd enough (Nat.not_le.mpr few)
    exact completes.post_of_wp made
  · intro rounds userId request call before response after completes
    obtain ⟨keyPrefix, secret, row, member, key⟩ :=
      completes.post_of_wp (createAsync_stores rounds userId request before) response rfl
    refine ⟨keyPrefix, secret, row, member, key, ?_⟩
    intro header presents
    have free : '_' ∉ keyPrefix.toList := by
      intro inside
      exact absurd (key.isKeyPrefix.alphanumeric '_' inside) (by decide)
    have dark : ∀ character ∈ (keyText keyPrefix secret).toList,
        isWhiteSpace character = false := by
      obtain ⟨number, isRandom⟩ := key.random
      intro character inside
      have marks : ∀ mark ∈ "ak_".toList, isWhiteSpace mark = false :=
        List.all_iff_forall_prop.mp (by decide)
      have separates : ∀ mark ∈ "_".toList, isWhiteSpace mark = false :=
        List.all_iff_forall_prop.mp (by decide)
      simp only [keyText, String.toList_append, List.mem_append] at inside
      rcases inside with ((marker | inPrefix) | separator) | inSecret
      · exact marks character marker
      · exact isWhiteSpace_of_alphanumeric (key.isKeyPrefix.alphanumeric character inPrefix)
      · exact separates character separator
      · rw [isRandom] at inSecret
        exact isWhiteSpace_of_base64url (base64url number character inSecret)
    have read : tryReadCredential (.authorizedBy header) = some response.key := by
      rw [key.text] at presents ⊢
      exact tryReadCredential_keyText dark presents
    have parts : splitAtMost '_' 3 response.key = ["ak", keyPrefix, secret] := by
      rw [key.text]
      exact split_keyText free
    refine ⟨read, parts, ?_⟩
    intro later stored unique storedMember samePrefix sameHash
    have found : findKey keyPrefix later.store.db = .ok (some stored) := by
      rw [← key.keyPrefix, ← samePrefix]
      exact findKey_of_unique unique storedMember
    have verified : services.passwordHasher.verify secret stored.keyHash = true := by
      obtain ⟨salt, hashed⟩ := key.keyHash
      rw [sameHash, hashed]
      exact verifies secret salt
    refine ⟨found, verified, ?_⟩
    intro call outcome final answered
    exact answered.post_of_wp (handleAuthenticateAsync_answers read parts found verified)

/-- One user without roles, before the thirteenth value is drawn. -/
def keylessWorld : World where
  db := { users := [{ id := 2, email := "ada@example.test", securityStamp := 1 }] }
  supply := 12

/-- The user creates a key without scopes. -/
def createsKey : Option (Except AppException CreateApiKeyResponse × State) :=
  Program.execute (fun _ _ _ _ => True) 0 (fun _ => ⟨10, false⟩)
    (createAsync .sample 1 2 ⟨"desk", [], none⟩) (Shared.initial keylessWorld ⟨10, false⟩)

theorem base64url_sample (number : ℕ) :
    ∀ character ∈ (Services.sample.tokenGenerator.newOpaqueToken number).toList,
      character ∈ Base64Url.alphabet := by
  intro character member
  simp only [Services.sample, String.toList_ofList] at member
  rw [List.eq_of_mem_replicate member]
  decide

theorem secretVerifies_sample (secret : String) (salt : ℕ) :
    Services.sample.passwordHasher.verify secret
      (Services.sample.passwordHasher.hashSecret secret salt) = true := by
  simp only [Services.sample, String.toList_append, String.toList_ofList]
  apply decide_eq_true
  induction salt with
  | zero => rfl
  | succ salt inductionHypothesis => exact inductionHypothesis

set_option maxRecDepth 10000 in
theorem createsKey_any : createsKey.any (fun ended =>
    ended.1.toOption.any (·.key = "ak_tttttttttttt_ttttttttttttt")) = true := by
  decide +kernel

/-- A key of the sample is read from its header. -/
theorem apiKey_roundTrip_sample :
    tryReadCredential (.authorizedBy "ApiKey ak_tttttttttttt_ttttttttttttt") =
      some "ak_tttttttttttt_ttttttttttttt" := by
  obtain ⟨⟨outcome, after⟩, executed, made⟩ := (Option.any_eq_true _ _).mp createsKey_any
  obtain ⟨response, returned, same⟩ := (Option.any_eq_true _ _).mp made
  have key : response.key = "ak_tttttttttttt_ttttttttttttt" := of_decide_eq_true same
  cases outcome with
  | error => cases returned
  | ok created =>
      cases returned
      obtain ⟨-, creates⟩ := apiKey_roundTrip base64url_sample secretVerifies_sample
      obtain ⟨_, _, _, _, _, reads⟩ :=
        creates 1 2 ⟨"desk", [], none⟩ 0 _ _ _ (Program.completes_of_execute executed)
      rw [key] at reads
      exact (reads _ .named).1

end RoundTrip

end AuthStartpack
