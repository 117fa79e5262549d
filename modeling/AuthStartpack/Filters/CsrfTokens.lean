import AuthStartpack.Filters.CsrfProtectionFilter
import Mathlib.Data.List.Nodup
import Std.Data.String.ToNat

/-!
Owns which tokens the CSRF filter accepts: those that were issued for the
session of the request and have not expired, presented both as cookie and as
header. What is not bound to the session is refused, whatever its parts are.
-/

namespace AuthStartpack

/-- A separator that is in neither of the texts before it splits them alike. -/
theorem split_unique {α : Type} [DecidableEq α] {separator : α} {first second rest other : List α}
    (notFirst : separator ∉ first) (notSecond : separator ∉ second)
    (equal : first ++ separator :: rest = second ++ separator :: other) :
    first = second ∧ rest = other := by
  have lengths : first.length = second.length := by
    have position := congrArg (List.idxOf separator) equal
    rwa [List.idxOf_append_of_notMem notFirst, List.idxOf_append_of_notMem notSecond,
      List.idxOf_cons_self, List.idxOf_cons_self] at position
  obtain ⟨same, tails⟩ := List.append_inj equal lengths
  exact ⟨same, List.tail_eq_of_cons_eq tails⟩

namespace CsrfTokenService

variable {decoder : Base64UrlDecoder} {protections : List CsrfProtection} {issued : CsrfIssued}
  {lifetime : Duration} {now : Instant}

theorem colon_not_mem_repr (id : Guid) : ':' ∉ id.repr.toList := by
  intro member
  have digit : (':').isDigit = true := by
    rw [Nat.toList_repr] at member
    exact Nat.isDigit_of_mem_toDigits (by decide) (by decide) member
  exact absurd digit (by decide)

/-- A payload determines the session and the nonce. -/
theorem payload_inj {first second : Guid} {nonce other : String} :
    payload first nonce = payload second other ↔ first = second ∧ nonce = other := by
  constructor
  · intro equal
    have characters := congrArg String.toList equal
    simp only [payload, String.toList_append, List.append_assoc] at characters
    obtain ⟨ids, nonces⟩ :=
      split_unique (colon_not_mem_repr first) (colon_not_mem_repr second) characters
    exact ⟨Nat.repr_injective (String.toList_inj.mp ids), String.toList_inj.mp nonces⟩
  · rintro ⟨rfl, rfl⟩
    rfl

/-- A tag finds the protection of the call that made it. -/
theorem find_protection {call : CsrfIssueCall} (member : call ∈ issued.calls) :
    (issued.protections lifetime).find? (·.tag = call.tag) = some (issue lifetime call).2 := by
  rw [CsrfIssued.protections, List.find?_map]
  cases found : issued.calls.find? ((fun protection : CsrfProtection =>
      decide (protection.tag = call.tag)) ∘ fun other => (issue lifetime other).2) with
  | none =>
      have differs := List.find?_eq_none.mp found call member
      simp [issue] at differs
  | some other =>
      have sameTag : other.tag = call.tag := by simpa [issue] using List.find?_some found
      rw [List.inj_on_of_nodup_map issued.distinct (List.mem_of_find?_eq_some found) member sameTag,
        Option.map_some]

/-- Only what was protected can be taken off its protection. -/
theorem unprotect_eq_some {tag : List UInt8} {text : String} :
    unprotect (issued.protections lifetime) now tag = some text ↔
      ∃ call ∈ issued.calls, call.tag = tag ∧ now ≤ call.now + lifetime ∧
        payload call.sessionId (Base64Url.encode call.nonce) = text := by
  unfold unprotect
  simp only [Option.map_eq_some_iff, Option.filter_eq_some_iff, decide_eq_true_eq]
  constructor
  · rintro ⟨protection, ⟨found, unexpired⟩, equal⟩
    obtain ⟨call, member, rfl⟩ := List.mem_map.mp (List.mem_of_find?_eq_some found)
    refine ⟨call, member, ?_, unexpired, equal⟩
    have sameTag := List.find?_some found
    exact of_decide_eq_true sameTag
  · rintro ⟨call, member, rfl, unexpired, equal⟩
    exact ⟨(issue lifetime call).2, ⟨find_protection member, unexpired⟩, equal⟩

/-- The text of a token with this nonce and this tag, both encoded. -/
def join (nonce tag : String) : String := nonce ++ "." ++ tag

theorem toList_join (nonce tag : String) :
    (join nonce tag).toList = nonce.toList ++ '.' :: tag.toList := by
  simp [join]

/-- The parts of a text around its first separator. -/
theorem eq_join_of_idxOf {token : String}
    (separated : token.toList.idxOf '.' < token.toList.length) :
    token = join (String.ofList (token.toList.take (token.toList.idxOf '.')))
        (String.ofList (token.toList.drop (token.toList.idxOf '.' + 1))) ∧
      '.' ∉ token.toList.take (token.toList.idxOf '.') := by
  have split : token.toList = token.toList.take (token.toList.idxOf '.') ++
      '.' :: token.toList.drop (token.toList.idxOf '.' + 1) := by
    conv_lhs => rw [← List.take_append_drop (token.toList.idxOf '.') token.toList]
    rw [List.drop_eq_getElem_cons separated, List.getElem_idxOf separated]
  constructor
  · apply String.toList_inj.mp
    rw [toList_join, String.toList_ofList, String.toList_ofList]
    exact split
  · intro earlier
    have position : token.toList.idxOf '.' =
        (token.toList.take (token.toList.idxOf '.')).idxOf '.' := by
      conv_lhs => rw [split]
      exact List.idxOf_append_of_mem earlier
    have below := List.idxOf_lt_length_iff.mpr earlier
    rw [← position, List.length_take] at below
    omega

/-- A text is validated just if it splits at its first separator into the parts of a live token of
the session. -/
theorem validate_eq_true {token : String} {sessionId : Guid} :
    validate decoder protections now token sessionId = true ↔
      ∃ nonce tag, token = join nonce tag ∧ '.' ∉ nonce.toList ∧ nonce ≠ "" ∧ tag ≠ "" ∧
        (decoder.decode tag).bind (unprotect protections now) = some (payload sessionId nonce) := by
  constructor
  · intro valid
    unfold validate at valid
    split at valid
    · cases valid
    · dsimp only at valid
      split at valid
      · cases valid
      · rename_i inside
        rw [not_or, not_or] at inside
        have below : token.toList.idxOf '.' < token.toList.length :=
          Nat.lt_of_le_of_ne List.idxOf_le_length inside.1
        obtain ⟨parts, absent⟩ := eq_join_of_idxOf below
        refine ⟨_, _, parts, by rwa [String.toList_ofList], ?_, ?_, ?_⟩
        · intro empty
          have none := congrArg String.toList empty
          rw [String.toList_ofList, String.toList_empty, List.take_eq_nil_iff] at none
          rcases none with zero | nil
          · exact inside.2.1 zero
          · rw [nil] at below
            cases below
        · intro empty
          have none := congrArg String.toList empty
          rw [String.toList_ofList, String.toList_empty, List.drop_eq_nil_iff] at none
          omega
        · split at valid
          · cases valid
          · rename_i unprotected equal
            rw [equal, of_decide_eq_true valid]
  · rintro ⟨nonce, tag, rfl, absent, nonceWritten, tagWritten, equal⟩
    have position : (join nonce tag).toList.idxOf '.' = nonce.toList.length := by
      rw [toList_join, List.idxOf_append_of_notMem absent, List.idxOf_cons_self, Nat.add_zero]
    have length :
        (join nonce tag).toList.length = nonce.toList.length + (tag.toList.length + 1) := by
      rw [toList_join, List.length_append, List.length_cons]
    have nonceLength : 0 < nonce.toList.length :=
      List.length_pos_iff.mpr fun nil => nonceWritten (String.toList_eq_nil_iff.mp nil)
    have tagLength : 0 < tag.toList.length :=
      List.length_pos_iff.mpr fun nil => tagWritten (String.toList_eq_nil_iff.mp nil)
    have written : join nonce tag ≠ "" := by
      intro empty
      rw [empty] at length
      simp at length
    have nonceText : String.ofList ((join nonce tag).toList.take nonce.toList.length) = nonce := by
      rw [toList_join, List.take_left', String.ofList_toList]
      rfl
    have tagText :
        String.ofList ((join nonce tag).toList.drop (nonce.toList.length + 1)) = tag := by
      rw [toList_join, List.drop_length_add_append, List.drop_one, List.tail_cons,
        String.ofList_toList]
    unfold validate
    rw [if_neg written]
    dsimp only
    rw [position, if_neg (by omega), nonceText, tagText, equal]
    exact decide_eq_true rfl

theorem dot_not_mem_encode (bytes : List UInt8) : '.' ∉ (Base64Url.encode bytes).toList := by
  rw [Base64Url.toList_encode]
  exact Base64Url.not_mem_encodeChars (by decide) bytes

/-- The parts of a live token of the session, with its tag encoded in any way. -/
theorem validate_iff {token : String} {sessionId : Guid} :
    validate decoder (issued.protections lifetime) now token sessionId = true ↔
      ∃ call ∈ issued.calls, call.sessionId = sessionId ∧ now ≤ call.now + lifetime ∧
        ∃ tag, decoder.decode tag = some call.tag ∧
          token = join (Base64Url.encode call.nonce) tag := by
  rw [validate_eq_true]
  constructor
  · rintro ⟨nonce, tag, rfl, -, -, -, equal⟩
    obtain ⟨bytes, decoded, unprotected⟩ := Option.bind_eq_some_iff.mp equal
    obtain ⟨call, member, rfl, unexpired, same⟩ := unprotect_eq_some.mp unprotected
    obtain ⟨session, nonces⟩ := payload_inj.mp same
    exact ⟨call, member, session, unexpired, tag, decoded, by rw [nonces]⟩
  · rintro ⟨call, member, rfl, unexpired, tag, decoded, rfl⟩
    have nonceBytes : call.nonce ≠ [] := by
      intro nil
      have length := issued.nonces call member
      rw [nil] at length
      cases length
    refine ⟨_, tag, rfl, ?_, ?_, ?_, ?_⟩
    · exact dot_not_mem_encode _
    · intro empty
      apply Base64Url.encodeChars_ne_nil nonceBytes
      rw [← Base64Url.toList_encode, empty]
      rfl
    · rintro rfl
      have none : decoder.decode "" = some [] := decoder.decode_encode []
      rw [none] at decoded
      exact issued.tags call member (Option.some.inj decoded).symm
    · rw [decoded]
      exact unprotect_eq_some.mpr ⟨call, member, rfl, unexpired, rfl⟩

/-- What `Issue` returns validates for its own session until it expires, and for no other. -/
theorem validate_issued {call : CsrfIssueCall} (member : call ∈ issued.calls) (sessionId : Guid) :
    validate decoder (issued.protections lifetime) now (issue lifetime call).1 sessionId = true ↔
      call.sessionId = sessionId ∧ now ≤ call.now + lifetime := by
  rw [validate_iff]
  constructor
  · rintro ⟨other, otherMember, session, unexpired, tag, decoded, equal⟩
    have parts := congrArg String.toList equal
    change (join _ _).toList = _ at parts
    rw [toList_join, toList_join] at parts
    obtain ⟨-, tags⟩ := split_unique (dot_not_mem_encode _) (dot_not_mem_encode _) parts
    rw [← String.toList_inj.mp tags, decoder.decode_encode] at decoded
    have same : call = other :=
      List.inj_on_of_nodup_map issued.distinct member otherMember (Option.some.inj decoded)
    rw [same]
    exact ⟨session, unexpired⟩
  · rintro ⟨session, unexpired⟩
    exact ⟨call, member, session, unexpired, _, decoder.decode_encode _, rfl⟩

end CsrfTokenService

namespace CsrfProtectionFilter

variable {decoder : Base64UrlDecoder} {protections : List CsrfProtection} {issued : CsrfIssued}
  {lifetime : Duration} {options : AuthCookieOptions} {now : Instant} {http : AuthenticatedRequest}
  {user : ClaimsPrincipal}

theorem fixedTimeEquals_iff {left : Option String} {right : String} :
    fixedTimeEquals left right = true ↔ right ≠ "" ∧ left = some right := by
  unfold fixedTimeEquals
  cases left with
  | none => simp
  | some text =>
      simp only [Option.any_some, Bool.and_eq_true, decide_eq_true_eq, Option.some.injEq]
      constructor
      · rintro ⟨⟨-, written⟩, same⟩
        exact ⟨written, same⟩
      · rintro ⟨written, rfl⟩
        exact ⟨⟨written, written⟩, rfl⟩

/-- A request that changes something and was authenticated by the access cookie. -/
structure Checked (http : AuthenticatedRequest) (user : ClaimsPrincipal) : Prop where
  method : isSafeMethod http.request.method = false
  authenticated : http.user = some user
  cookie : http.cookieAuthenticated = true

theorem onAuthorization_eq_none (checked : Checked http user) :
    onAuthorization decoder protections options now http = none ↔
      fixedTimeEquals (http.request.cookie options.csrfCookieName)
          (http.request.header options.csrfHeaderName) = true ∧
        (sessionId user).any (CsrfTokenService.validate decoder protections now
          (http.request.header options.csrfHeaderName)) = true := by
  unfold onAuthorization
  rw [checked.method, checked.authenticated, checked.cookie]
  cases same : fixedTimeEquals (http.request.cookie options.csrfCookieName)
      (http.request.header options.csrfHeaderName) with
  | false => simp [same]
  | true =>
      cases valid : (sessionId user).any (CsrfTokenService.validate decoder protections now
          (http.request.header options.csrfHeaderName)) with
      | false => simp [same, valid]
      | true => simp [same, valid]

/-- A checked request passes just if cookie and header both are the same token that was issued for
its session and has not expired. A caller without the tag of such a token never passes, and what
`Issue` returns validates for its own session until it expires, and for no other. -/
theorem checked_passes_iff (checked : Checked http user) :
    (onAuthorization decoder (issued.protections lifetime) options now http = none ↔
      ∃ token, token ≠ "" ∧ http.request.cookie options.csrfCookieName = some token ∧
        http.request.header options.csrfHeaderName = token ∧
        ∃ call ∈ issued.calls, sessionId user = some call.sessionId ∧ now ≤ call.now + lifetime ∧
          ∃ tag, decoder.decode tag = some call.tag ∧
            token = CsrfTokenService.join (Base64Url.encode call.nonce) tag) ∧
      (∀ held : List (List UInt8),
        (∀ call ∈ issued.calls, call.tag ∈ held → sessionId user ≠ some call.sessionId) →
        (∀ nonce tag bytes, http.request.header options.csrfHeaderName =
            CsrfTokenService.join nonce tag → decoder.decode tag = some bytes →
          bytes ∈ held ∨ bytes ∉ issued.calls.map CsrfIssueCall.tag) →
        onAuthorization decoder (issued.protections lifetime) options now http ≠ none) ∧
      ∀ call ∈ issued.calls, ∀ other,
        CsrfTokenService.validate decoder (issued.protections lifetime) now
            (CsrfTokenService.issue lifetime call).1 other = true ↔
          call.sessionId = other ∧ now ≤ call.now + lifetime := by
  have passes : onAuthorization decoder (issued.protections lifetime) options now http = none ↔
      ∃ token, token ≠ "" ∧ http.request.cookie options.csrfCookieName = some token ∧
        http.request.header options.csrfHeaderName = token ∧
        ∃ call ∈ issued.calls, sessionId user = some call.sessionId ∧ now ≤ call.now + lifetime ∧
          ∃ tag, decoder.decode tag = some call.tag ∧
            token = CsrfTokenService.join (Base64Url.encode call.nonce) tag := by
    rw [onAuthorization_eq_none checked, fixedTimeEquals_iff, Option.any_eq_true]
    constructor
    · rintro ⟨⟨written, same⟩, id, session, valid⟩
      obtain ⟨call, member, rfl, unexpired, token⟩ := CsrfTokenService.validate_iff.mp valid
      exact ⟨_, written, same, rfl, call, member, session, unexpired, token⟩
    · rintro ⟨_, written, same, rfl, call, member, session, unexpired, token⟩
      refine ⟨⟨written, same⟩, call.sessionId, session, ?_⟩
      exact CsrfTokenService.validate_iff.mpr ⟨call, member, rfl, unexpired, token⟩
  refine ⟨passes, ?_, fun call member other => CsrfTokenService.validate_issued member other⟩
  intro held foreign forged accepted
  obtain ⟨_, -, -, header, call, member, session, -, tag, decoded, rfl⟩ := passes.mp accepted
  rcases forged _ tag call.tag header decoded with holds | unknown
  · exact foreign call member holds session
  · exact unknown (List.mem_map_of_mem member)

/-- The decoder that accepts nothing but encoded texts. -/
def strictDecoder : Base64UrlDecoder := ⟨Base64Url.decode, Base64Url.decode_encode⟩

/-- One call, for session 7. -/
def sampleCall : CsrfIssueCall where
  sessionId := 7
  now := 0
  nonce := List.replicate 32 1
  tag := [2, 3]

def sampleIssued : CsrfIssued := ⟨[sampleCall], by decide, by decide, by decide⟩

/-- A request of session 7 with the token that was issued for it, as cookie and as header. -/
def sampleRequest : AuthenticatedRequest where
  request :=
    { header := fun _ => (CsrfTokenService.issue 100 sampleCall).1
      cookie := fun _ => some (CsrfTokenService.issue 100 sampleCall).1 }
  user := some [⟨"sid", "7"⟩]
  cookieAuthenticated := true

theorem sessionId_sample : sessionId [⟨"sid", "7"⟩] = some 7 := Nat.toNat?_repr 7

theorem checked_passes_iff_sample :
    onAuthorization strictDecoder (sampleIssued.protections 100) {} 100 sampleRequest = none ∧
      CsrfTokenService.validate strictDecoder (sampleIssued.protections 100) 100
        (CsrfTokenService.issue 100 sampleCall).1 8 ≠ true := by
  obtain ⟨passes, -, validates⟩ := @checked_passes_iff strictDecoder sampleIssued 100 {} 100
    sampleRequest [⟨"sid", "7"⟩] ⟨by decide, rfl, rfl⟩
  refine ⟨passes.mpr ⟨(CsrfTokenService.issue 100 sampleCall).1, by decide, rfl, rfl, sampleCall,
    List.mem_singleton_self _, sessionId_sample, by decide, _, strictDecoder.decode_encode _, rfl⟩,
      ?_⟩
  intro valid
  have other := ((validates sampleCall (List.mem_singleton_self _) 8).mp valid).1
  exact absurd other (by decide)

end CsrfProtectionFilter

end AuthStartpack
