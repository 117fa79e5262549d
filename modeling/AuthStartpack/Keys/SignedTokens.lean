import AuthStartpack.Keys.Agreement

/-!
Owns the signatures on access tokens, and the operations on signing keys in any
interleaving: at most one key is active, a status only moves on, whoever loses a
race changes nothing, and a token is returned only if the key that its header
names has signed it.
-/

namespace AuthStartpack

def Event.signs : Event → Bool
  | .payloadSigned _ => true
  | _ => false

/-- How many payloads were signed. -/
def signatures (events : List Event) : ℕ := events.countP Event.signs

@[simp]
theorem signatures_append (first second : List Event) :
    signatures (first ++ second) = signatures first + signatures second :=
  List.countP_append

/-- The private key of `key` has produced the signature over the text. -/
def SignedBy (services : Services) (key : SigningKey) (text signature : String) : Prop :=
  ∃ privateKey nonce, services.signing.unprotect key.privateKeyProtected = some privateKey ∧
    signature = services.signing.signData privateKey nonce text

/-- A key of the ring has produced this signature, and has this `kid`. -/
def SignedInRing (services : Services) (text keyId signature : String) (state : State) : Prop :=
  ∃ key, HoldsKey key state ∧ key.keyId = keyId ∧ SignedBy services key text signature

theorem SignedInRing.later {services : Services} {text keyId signature : String}
    {before after : State}
    (signed : SignedInRing services text keyId signature before)
    (accounted : KeysAccounted before after) :
    SignedInRing services text keyId signature after := by
  obtain ⟨key, holds, rest⟩ := signed
  exact ⟨key, holds.later accounted, rest⟩

/-- `call` has signed so many payloads at most since `start`. -/
def Signs (call : ℕ) (start : State) (bound : ℕ) (after : State) : Prop :=
  ∃ events, signatures events ≤ bound ∧ Reported call start events after

namespace Signs

variable {call : ℕ} {first second third : State} {bound more : ℕ}

theorem trans (early : Signs call first bound second) (late : Signs call second more third) :
    Signs call first (bound + more) third := by
  obtain ⟨events, few, reported⟩ := early
  obtain ⟨others, fewMore, reportedLater⟩ := late
  refine ⟨events ++ others, ?_, reported.trans reportedLater⟩
  rw [signatures_append]
  omega

theorem of_offers {events : List Event} (offers : SigningKeyManager.Offers events)
    (reported : Reported call first events second) : Signs call first 0 second := by
  refine ⟨events, Nat.le_zero.mpr (List.countP_eq_zero.mpr ?_), reported⟩
  intro event member signs
  cases event with
  | payloadSigned keyId => exact offers.unsigned keyId member
  | _ => cases signs

theorem of_silent (reported : Reported call first [] second) : Signs call first 0 second :=
  ⟨[], Nat.le_refl _, reported⟩

theorem mono (signs : Signs call first bound second) (fewer : bound ≤ more) :
    Signs call first more second := by
  obtain ⟨events, few, reported⟩ := signs
  exact ⟨events, Nat.le_trans few fewer, reported⟩

theorem accounted (signs : Signs call first bound second) : KeysAccounted first second := by
  obtain ⟨events, -, reported⟩ := signs
  exact reported.accounted

end Signs

namespace SigningKeyManager

variable {services : Services} {http : HttpContext} {call : ℕ} {start : State}

/-- A signature of the text, made with one of at most `bound` signatures. -/
def SignsText (services : Services) (text : String) (call : ℕ) (start : State) (bound : ℕ)
    (outcome : Except AppException SignatureResult) (after : State) : Prop :=
  Signs call start bound after ∧
    ∀ result, outcome = .ok result → SignedInRing services text result.keyId result.signature after

/-- A signature with a key of the ring; one that cannot be unprotected signs nothing. -/
theorem sign_signs {key : SigningKey} {text : String} (holds : HoldsKey key start) :
    (sign services key text).wp .keyring call (fun outcome after =>
      SignsText services text call start 1 outcome after ∧
        (outcome = .error .cryptographic → Signs call start 0 after)) start := by
  simp only [sign, Program.wp_bind, Action.wp_orThrow]
  cases opened : services.signing.unprotect key.privateKeyProtected with
  | none =>
      refine ⟨⟨(Signs.of_silent (.refl start)).mono (Nat.zero_le 1), ?_⟩,
        fun _ => .of_silent (.refl start)⟩
      rintro _ ⟨⟩
  | some privateKey =>
      dsimp only
      rw [Program.andThen_ok, Program.wp_bind]
      refine wp_reporting (fun _ world =>
        (world.supply, { world with supply := world.supply + 1 }, [.payloadSigned key.keyId]))
        (fun _ _ => rfl) ?_ ?_
      · intro input world event member concerns
        rw [List.mem_singleton.mp member] at concerns
        exact concerns
      · intro current input _ reported
        have once : Signs call start 1
            (current.advance call input ({ current.store with supply := current.store.supply + 1 },
              [.payloadSigned key.keyId])) := ⟨_, by simp [signatures, Event.signs], reported⟩
        refine ⟨⟨once, ?_⟩, by rintro ⟨⟩⟩
        rintro _ ⟨⟩
        exact ⟨key, holds.later reported.accounted, rfl, privateKey, _, opened, rfl⟩

theorem signAsync_signs {text : String} (valid : ValidRing start.store.db.signingKeys) :
    (signAsync services http text).wp .keyring call
      (SignsText services text call start 1) start := by
  have refused : ∀ {exception : AppException} {after : State}, Signs call start 1 after →
      SignsText services text call start 1 (.error exception) after :=
    fun signs => ⟨signs, fun _ impossible => nomatch impossible⟩
  refine Program.wp_bind_of getOrCreateActiveKeyAsync_offers ?_ ?_
  case refine_2 =>
    rintro exception after ⟨⟨events, offers, reported⟩, -⟩
    exact refused ((Signs.of_offers offers reported).mono (Nat.zero_le 1))
  rintro key created ⟨⟨events, offers, reported⟩, holds⟩
  have reached := Signs.of_offers offers reported
  rw [Program.wp_tryCatch]
  refine Program.wp_mono (sign_signs (holds key rfl)) ?_
  rintro outcome signed ⟨⟨signs, results⟩, unsigned⟩
  cases outcome with
  | ok result => exact ⟨reached.trans signs, results⟩
  | error exception =>
  dsimp only
  split
  case isFalse => exact refused (reached.trans signs)
  case isTrue lost =>
  -- A key that cannot be unprotected has signed nothing, and is replaced.
  have known : Signs call start 0 signed := reached.trans (unsigned (congrArg Except.error lost.1))
  refine Program.wp_bind_of (rotateAsync_offers (known.accounted.valid valid)) ?_ ?_
  case refine_2 =>
    rintro exception after ⟨⟨events, offers, reported⟩, -⟩
    exact refused ((known.trans (.of_offers offers reported)).mono (Nat.zero_le 1))
  rintro keyId rotated ⟨⟨events, offers, reported⟩, -⟩
  have replaced := known.trans (.of_offers offers reported)
  refine Program.wp_bind_of getOrCreateActiveKeyAsync_offers ?_ ?_
  case refine_2 =>
    rintro exception after ⟨⟨events, offers, reported⟩, -⟩
    exact refused ((replaced.trans (.of_offers offers reported)).mono (Nat.zero_le 1))
  rintro replacement found ⟨⟨events, offers, reported⟩, holds⟩
  have ready := replaced.trans (.of_offers offers reported)
  refine Program.wp_mono (sign_signs (holds replacement rfl)) ?_
  rintro outcome after ⟨⟨signs, results⟩, -⟩
  exact ⟨ready.trans signs, results⟩

end SigningKeyManager

namespace AccessTokenIssuer

variable {services : Services} {http : HttpContext} {call : ℕ} {start : State}

/-- The key that the header names has signed header and payload. -/
def Genuine (services : Services) (token : SignedAccessToken) (state : State) : Prop :=
  SignedInRing services (signingInput services token.header token.payload) token.header.kid
    token.signature state

theorem signPayload_genuine {payload : AccessToken} {attempts : ℕ}
    (valid : ValidRing start.store.db.signingKeys) :
    (signPayload services http payload attempts).wp .keyring call (fun outcome after =>
      Signs call start attempts after ∧
        ∀ token, outcome = .ok token → Genuine services token after) start := by
  induction attempts generalizing start with
  | zero => exact ⟨.of_silent (.refl start), fun _ impossible => nomatch impossible⟩
  | succ attempts inductionHypothesis =>
      refine Program.wp_bind_of SigningKeyManager.getActiveKeyIdAsync_offers ?_ ?_
      case refine_2 =>
        rintro exception after ⟨⟨events, offers, reported⟩, -⟩
        exact ⟨(Signs.of_offers offers reported).mono (Nat.zero_le _), fun _ impossible =>
          nomatch impossible⟩
      rintro keyId named ⟨⟨events, offers, reported⟩, -⟩
      have reached := Signs.of_offers offers reported
      have stillValid := reached.accounted.valid valid
      refine Program.wp_bind_of (SigningKeyManager.signAsync_signs stillValid) ?_ ?_
      case refine_2 =>
        rintro exception after ⟨signs, -⟩
        refine ⟨(reached.trans signs).mono (by omega), fun _ impossible => nomatch impossible⟩
      rintro result signed ⟨signs, results⟩
      have once := reached.trans signs
      split
      case isTrue =>
        refine Program.wp_mono (inductionHypothesis (once.accounted.valid valid)) ?_
        rintro outcome after ⟨more, genuine⟩
        exact ⟨(once.trans more).mono (by omega), genuine⟩
      case isFalse same =>
        have equal : result.keyId = keyId := Decidable.not_not.mp same
        refine ⟨once.mono (by omega), ?_⟩
        rintro _ ⟨⟩
        exact equal ▸ results result rfl

theorem issueSignedAsync_genuine {request : AccessTokenRequest}
    (valid : ValidRing start.store.db.signingKeys) :
    (issueSignedAsync services http request).wp .keyring call (fun outcome after =>
      Signs call start 3 after ∧
        ∀ issued, outcome = .ok issued → Genuine services issued.value after) start := by
  rw [issueSignedAsync, Program.wp_bind]
  refine wp_reporting (fun input world => (input.now, world, [.accessTokenDated]))
    (fun _ _ => rfl) ?_ ?_
  · intro input world event member concerns
    rw [List.mem_singleton.mp member] at concerns
    exact concerns
  intro current input _ dated
  have unsigned :
      Signs call start 0 (current.advance call input (current.store, [.accessTokenDated])) :=
    ⟨_, by simp [signatures, Event.signs], dated⟩
  rw [Program.andThen_ok, Program.wp_bind]
  refine Action.calm_draw (Reported.calm call) ?_
  intro waited drawn wait draw _
  have reached := unsigned.trans (.of_silent (wait.trans draw))
  rw [Program.andThen_ok]
  refine Program.wp_bind_of (signPayload_genuine (reached.accounted.valid valid)) ?_ ?_
  · rintro value after ⟨signs, genuine⟩
    refine ⟨(reached.trans signs).mono (by omega), ?_⟩
    rintro _ ⟨⟩
    exact genuine value rfl
  · rintro exception after ⟨signs, -⟩
    exact ⟨(reached.trans signs).mono (by omega), fun _ impossible => nomatch impossible⟩

end AccessTokenIssuer

end AuthStartpack
