import VissServer.AtServer.Issuing
import VissServer.AtServer.Replays
import VissServer.AtServer.RoleMatching
import VissServer.Utils.TokenClaims

/-!
From which messages of clients and of the ECF the access token server gets to a response: the
members that are taken for strings, the proof of possession, the roles of the grant token and
its claim exp.
-/
namespace VissServer.AtServer

open Go Utils

/-- The responses to clients among the effects of a step. -/
def clientResponses (effects : List Effect) : List GoString :=
  effects.filterMap fun
    | .client response => some response
    | _ => none

/-- The messages to the ECF among the effects of a step. -/
def ecfMessages (effects : List Effect) : List GoString :=
  effects.filterMap fun
    | .ecf message => some message
    | _ => none

/-- The handling of a message ends, with one response. -/
def AnsweredOnce (responses : List Effect → List GoString) (outcome : Outcome) : Prop :=
  ∃ r, outcome = some r ∧ (responses r.2).length = 1

/-- Where the handling of a message ends, it has one response. -/
def RespondsOnce (responses : List Effect → List GoString) (outcome : Outcome) : Prop :=
  ∀ r, outcome = some r → (responses r.2).length = 1

/-- Unmarshal can take apart the proof of possession of an at-request. -/
def ProofSliceable (cfg : Config) (request : GoString) : Prop :=
  ∀ payload, AtGenPayload.unmarshal request = some payload →
    (payload.agt.decodeFromFull payload.token).isSome → payload.pop ≠ [] →
    payload.popTk.Sliceable cfg.crypto payload.pop

/-- Whether the grant token of a payload has a valid signature and valid times. -/
def grantValid (cfg : Config) (m : Moment) (payload : AtGenPayload) : Bool :=
  payload.agt.token.checkRsaSignature cfg.crypto cfg.agtKey &&
    (match atoi (claim payload.agt.payloadClaims (str "iat")),
      atoi (claim payload.agt.payloadClaims (str "exp")) with
    | some iat, some exp => validateTokenTimestamps m.now iat exp
    | _, _ => false)

/-- Whether the checks of the tokens lead to the check of the purpose. -/
def reachesPurpose (cfg : Config) (m : Moment) (jtiCache : List GoString)
    (payload : AtGenPayload) : Bool :=
  grantValid cfg m payload && (claim payload.agt.payloadClaims (str "pub") = [] ||
    payload.jti ∉ jtiCache && popPasses cfg m.now payload)

/-- The signature of the proof can be checked where it is, and the roles of the grant token
can be looked up where the purpose is checked. -/
structure ChecksSafe (cfg : Config) (m : Moment) (jtiCache : List GoString)
    (payload : AtGenPayload) : Prop where
  signature : reachesPop cfg m payload = true → payload.jti ∉ jtiCache →
    payload.popTk.SignatureFits
  roles : reachesPurpose cfg m jtiCache payload = true →
    ∀ p ∈ cfg.pList, p.short = payload.purpose → ∀ c ∈ p.context,
      RolesFound (claim payload.agt.payloadClaims (str "clx")) c

/-- What goes into a list has an expiry. -/
structure GrantSafe (cfg : Config) (m : Moment) (s : State) (payload : AtGenPayload) : Prop where
  pending : checkifConsent cfg payload.purpose = true → s.ecfAvailable = true →
    s.pendingSlot (-1) ≠ none → Extractable payload.token (str "exp")
  active : checkifConsent cfg payload.purpose = false → s.activeSlot (-1) ≠ none → m.uuid ≠ none

section

variable {responses : List Effect → List GoString} {s : State} {effects : List Effect}

theorem answeredOnce_some :
    AnsweredOnce responses (some (s, effects)) ↔ (responses effects).length = 1 := by
  simp [AnsweredOnce]

theorem answeredOnce_bind {α : Type} {x : MayPanic α} {f : α → Outcome} :
    AnsweredOnce responses (x.bind f) ↔ ∃ a, x = some a ∧ AnsweredOnce responses (f a) := by
  cases x with
  | none => simp [AnsweredOnce]
  | some a => simp

theorem respondsOnce_some (h : (responses effects).length = 1) :
    RespondsOnce responses (some (s, effects)) := by
  intro r hr
  rw [← Option.some.inj hr]
  exact h

theorem respondsOnce_bind {α : Type} {x : MayPanic α} {f : α → Outcome}
    (h : ∀ a, RespondsOnce responses (f a)) : RespondsOnce responses (x.bind f) := by
  intro r hr
  obtain ⟨a, -, hr⟩ := Option.bind_eq_some_iff.mp hr
  exact h a r hr

/-- Behind a part that can panic there is always a response. -/
theorem answeredOnce_bind_some {α : Type} {x : MayPanic α} {f : α → State × List Effect}
    (h : ∀ a, (responses (f a).2).length = 1) :
    AnsweredOnce responses (x.bind fun a => some (f a)) ↔ x.isSome := by
  rw [answeredOnce_bind, Option.isSome_iff_exists]
  exact ⟨fun ⟨a, ha, _⟩ => ⟨a, ha⟩, fun ⟨a, ha⟩ => ⟨a, ha, answeredOnce_some.mpr (h a)⟩⟩

end

section

variable {cfg : Config} {m : Moment} {s : State} {payload : AtGenPayload}
  {jtiCache : List GoString} {request : GoString}

theorem decodeRequest_isSome_iff :
    (decodeRequest cfg request).isSome ↔ ProofSliceable cfg request := by
  unfold decodeRequest ProofSliceable
  cases hpayload : AtGenPayload.unmarshal request with
  | none => simp
  | some payload =>
    cases hagt : payload.agt.decodeFromFull payload.token with
    | none => simp [hagt]
    | some agt =>
      by_cases hpop : payload.pop = []
      · simp [hagt, hpop]
      · simp only [hagt, hpop, if_false, Option.some.injEq, forall_eq', ne_eq, not_false_eq_true,
          forall_const, ← PopToken.unmarshal_isSome_iff]
        cases hpopTk : payload.popTk.unmarshal cfg.crypto payload.pop with
        | none => simp
        | some popTk =>
          cases popTk with
          | none => simp
          | some popTk => simp

theorem validatePop_isSome_iff :
    (validatePop cfg m jtiCache payload).isSome ↔
      payload.jti ∉ jtiCache → payload.popTk.SignatureFits := by
  by_cases hjti : payload.jti ∈ jtiCache
  · rw [validatePop_known hjti]
    simp [hjti]
  · have hjti' : claim payload.popTk.payloadClaims (str "jti") ∉ jtiCache := hjti
    simp only [hjti, not_false_eq_true, forall_const]
    rw [← @PopToken.checkSignature_isSome_iff cfg.crypto]
    simp only [validatePop, addCheckJti, if_neg hjti', not_true_eq_false, if_false,
      Option.bind_eq_bind]
    cases payload.popTk.checkSignature cfg.crypto with
    | none => rfl
    | some signed =>
      simp only [Option.bind_some, Option.isSome_some, iff_true]
      repeat' split
      all_goals rfl

theorem reachesPop_eq : reachesPop cfg m payload =
    (grantValid cfg m payload && claim payload.agt.payloadClaims (str "pub") ≠ []) := rfl

/-- What validateRequest does where the grant token is valid. -/
theorem validateRequest_granted (hgrant : grantValid cfg m payload = true) :
    validateRequest cfg m jtiCache payload =
      (if claim payload.agt.payloadClaims (str "pub") ≠ [] then validatePop cfg m jtiCache payload
        else some ([], jtiCache)).bind fun r =>
          if r.1 ≠ [] then some r else
            (validatePurpose cfg payload.purpose
              (claim payload.agt.payloadClaims (str "clx"))).map fun valid =>
                if valid then ([], r.2) else
                  (str "\x7b\"error\": \"Purpose validation failed\"\x7d", r.2) := by
  simp only [grantValid, Bool.and_eq_true] at hgrant
  obtain ⟨hsigned, hstamps⟩ := hgrant
  split at hstamps
  · next iat exp hiat hexp =>
    simp only [validateRequest, hsigned, hiat, hexp, hstamps, not_true_eq_false, if_false,
      Option.bind_eq_bind]
    cases validatePurpose cfg payload.purpose (claim payload.agt.payloadClaims (str "clx")) with
    | none => split <;> rfl
    | some valid =>
      have hanswer : ∀ r : GoString × List GoString, (if valid = true then some ([], r.2)
          else some (str "\x7b\"error\": \"Purpose validation failed\"\x7d", r.2)) =
          some (if valid = true then ([], r.2)
            else (str "\x7b\"error\": \"Purpose validation failed\"\x7d", r.2)) := by
        intro r
        cases valid <;> rfl
      simp only [Option.bind_some, hanswer, Option.map_some]
      split <;> rfl
  · cases hstamps

theorem validateRequest_refused (hgrant : grantValid cfg m payload = false) :
    (validateRequest cfg m jtiCache payload).isSome := by
  unfold validateRequest
  split
  · rfl
  · next hsigned =>
    dsimp only
    split
    · rfl
    · rfl
    · next iat exp hiat hexp =>
      split
      · rfl
      · next hstamps =>
        simp only [not_not] at hsigned hstamps
        simp [grantValid, hsigned, hiat, hexp, hstamps] at hgrant

/-- validatePop lets a proof through that is new and passes the checks behind addCheckJti. -/
theorem validatePop_passes {r : GoString × List GoString}
    (h : validatePop cfg m jtiCache payload = some r) :
    r.1 = [] ↔ payload.jti ∉ jtiCache ∧ popPasses cfg m.now payload = true := by
  by_cases hjti : payload.jti ∈ jtiCache
  · rw [validatePop_known hjti] at h
    obtain rfl := Option.some.inj h
    simp only [hjti, not_true_eq_false, false_and, iff_false]
    decide
  · simp only [hjti, not_false_eq_true, true_and]
    exact (validatePop_new hjti h).2

theorem validateRequest_isSome_iff :
    (validateRequest cfg m jtiCache payload).isSome ↔ ChecksSafe cfg m jtiCache payload := by
  cases hgrant : grantValid cfg m payload with
  | false =>
    refine iff_of_true (validateRequest_refused hgrant) ⟨?_, ?_⟩
    · simp [reachesPop_eq, hgrant]
    · simp [reachesPurpose, hgrant]
  | true =>
    have hroles := @validatePurpose_isSome_iff
      (claim payload.agt.payloadClaims (str "clx")) cfg payload.purpose
    rw [validateRequest_granted hgrant]
    by_cases hpub : claim payload.agt.payloadClaims (str "pub") = []
    · have hreaches : reachesPop cfg m payload = false := by simp [reachesPop_eq, hpub]
      have hpurpose : reachesPurpose cfg m jtiCache payload = true := by
        simp [reachesPurpose, hgrant, hpub]
      simp only [hpub, ne_eq, not_true_eq_false, if_false, Option.bind_some, Option.isSome_map,
        hroles]
      exact ⟨fun h => ⟨by simp [hreaches], fun _ => h⟩, fun h => h.roles hpurpose⟩
    · have hreaches : reachesPop cfg m payload = true := by simp [reachesPop_eq, hgrant, hpub]
      rw [if_pos hpub]
      cases hpop : validatePop cfg m jtiCache payload with
      | none =>
        have hnone : ¬ (validatePop cfg m jtiCache payload).isSome := by simp [hpop]
        rw [validatePop_isSome_iff] at hnone
        exact iff_of_false (by simp) fun h => hnone (h.signature hreaches)
      | some r =>
        have hsignature := validatePop_isSome_iff.mp (Option.isSome_of_eq_some hpop)
        have hpasses : r.1 = [] ↔ reachesPurpose cfg m jtiCache payload = true := by
          rw [validatePop_passes hpop]
          simp [reachesPurpose, hgrant, hpub]
        rw [Option.bind_some]
        by_cases hempty : r.1 = []
        · rw [if_neg (not_not.mpr hempty), Option.isSome_map, hroles]
          exact ⟨fun h => ⟨fun _ => hsignature, fun _ => h⟩, fun h => h.roles (hpasses.mp hempty)⟩
        · rw [if_pos hempty]
          exact iff_of_true rfl ⟨fun _ => hsignature, fun h => absurd (hpasses.mpr h) hempty⟩

theorem writeToPendingList_isSome_iff {now g : ℤ} :
    (writeToPendingList now s g payload).isSome ↔
      s.pendingSlot (-1) ≠ none → Extractable payload.token (str "exp") := by
  unfold writeToPendingList
  rw [← extractFromToken_isSome_iff]
  cases s.pendingSlot (-1) with
  | none => simp
  | some i =>
    cases extractFromToken payload.token (str "exp") with
    | none => simp
    | some expiry => simp

theorem issueAt_isSome_iff {g : ℤ} :
    (issueAt cfg m s g payload).isSome ↔ s.activeSlot (-1) ≠ none → m.uuid ≠ none := by
  rw [← @generateAt_extracts cfg m payload]
  unfold issueAt writeToActiveList
  cases hslot : s.activeSlot (-1) with
  | none => simp
  | some i =>
    cases hexpiry : extractFromToken (generateAt cfg m payload) (str "exp") with
    | none => simp [hexpiry]
    | some expiry => simp [hexpiry]

theorem grantRequest_answers :
    AnsweredOnce clientResponses (grantRequest cfg m s payload) ↔ GrantSafe cfg m s payload := by
  unfold grantRequest
  cases hconsent : checkifConsent cfg payload.purpose with
  | true =>
    have hsafe : GrantSafe cfg m s payload ↔ (s.ecfAvailable = true →
        (writeToPendingList m.now s (newGatingId s) payload).isSome) := by
      rw [writeToPendingList_isSome_iff]
      exact ⟨fun h => h.pending hconsent, fun h => ⟨fun _ => h, by simp [hconsent]⟩⟩
    rw [hsafe]
    by_cases hecf : s.ecfAvailable = true
    · simp only [hecf, if_true, forall_const]
      exact answeredOnce_bind_some fun _ => rfl
    · simp only [hecf, if_true]
      exact iff_of_true (answeredOnce_some.mpr rfl) (by simp)
  | false =>
    have hsafe : GrantSafe cfg m s payload ↔
        (issueAt cfg m s (newGatingId s) payload).isSome := by
      rw [issueAt_isSome_iff]
      exact ⟨fun h => h.active hconsent, fun h => ⟨by simp [hconsent], fun _ => h⟩⟩
    rw [hsafe]
    exact answeredOnce_bind_some fun _ => rfl

/-- What an at-request comes to is in the bounds. -/
structure RequestSafe (cfg : Config) (m : Moment) (s : State) (request : GoString) : Prop where
  proof : ProofSliceable cfg request
  checks : ∀ payload, decodeRequest cfg request = some (.inr payload) →
    ChecksSafe cfg m s.jtiCache payload
  grant : ∀ payload, accepted cfg m s (.client request) = some payload → GrantSafe cfg m s payload

/-- What an at-inquiry comes to is in the bounds: the session id is a string, and a token
that is made goes into the active list with its expiry. -/
structure InquirySafe (m : Moment) (s : State) (request : GoString) : Prop where
  sessionId : ∀ inputMap, unmarshalMap request = some inputMap →
    ∃ id, valueAt inputMap (str "sessionId") = .str id
  yield : ∀ g, extractGatingId request = some g → ∀ i, s.pendingSlot g = some i →
    (s.pendingList i).consent ≠ str "NOT_SET" → (s.pendingList i).consent ≠ str "NO" →
    s.activeSlot (-1) ≠ none → m.uuid ≠ none

theorem accessTokenResponse_answers (hrequest : contains request (str "at-request") = true) :
    AnsweredOnce clientResponses (accessTokenResponse cfg m s request) ↔
      RequestSafe cfg m s request := by
  have hparts : RequestSafe cfg m s request ↔ (decodeRequest cfg request).isSome ∧
      (∀ payload, decodeRequest cfg request = some (.inr payload) →
        (validateRequest cfg m s.jtiCache payload).isSome) ∧
      ∀ payload, accepted cfg m s (.client request) = some payload → GrantSafe cfg m s payload := by
    simp only [decodeRequest_isSome_iff, validateRequest_isSome_iff]
    exact ⟨fun h => ⟨h.proof, h.checks, h.grant⟩, fun h => ⟨h.1, h.2.1, h.2.2⟩⟩
  rw [hparts]
  unfold accessTokenResponse accepted
  simp only [hrequest, if_true]
  cases decodeRequest cfg request with
  | none => simp [AnsweredOnce]
  | some r =>
    cases r with
    | inl errResponse => simp [AnsweredOnce, clientResponses]
    | inr payload =>
      simp only [Option.bind_eq_bind, Option.bind_some, answeredOnce_bind]
      cases hvalid : validateRequest cfg m s.jtiCache payload with
      | none => simp [hvalid]
      | some r =>
        by_cases hempty : r.1 = []
        · have hstate : GrantSafe cfg m s payload ↔
              GrantSafe cfg m { s with jtiCache := r.2 } payload :=
            ⟨fun h => ⟨h.pending, h.active⟩, fun h => ⟨h.pending, h.active⟩⟩
          rw [← grantRequest_answers, ← grantRequest_answers] at hstate
          simp [hvalid, hempty, hstate, ← grantRequest_answers]
        · simp [hvalid, answeredOnce_some, clientResponses, hempty]

theorem extractGatingId_isSome_iff : (extractGatingId request).isSome ↔
    ∀ inputMap, unmarshalMap request = some inputMap →
      ∃ id, valueAt inputMap (str "sessionId") = .str id := by
  unfold extractGatingId extractKeyValue
  cases unmarshalMap request with
  | none => simp
  | some inputMap =>
    simp only [Option.isSome_map, Option.some.injEq, forall_eq']
    cases valueAt inputMap (str "sessionId") <;> simp [asString]

theorem inquirySlot_answers {g : ℤ} {i : Slot} :
    AnsweredOnce clientResponses (inquirySlot cfg m s g i) ↔
      ((s.pendingList i).consent ≠ str "NOT_SET" → (s.pendingList i).consent ≠ str "NO" →
        s.activeSlot (-1) ≠ none → m.uuid ≠ none) := by
  unfold inquirySlot
  dsimp only
  by_cases hnotSet : (s.pendingList i).consent = str "NOT_SET"
  · rw [if_pos hnotSet, answeredOnce_some]
    exact iff_of_true rfl fun h => absurd hnotSet h
  · by_cases hno : (s.pendingList i).consent = str "NO"
    · rw [if_neg hnotSet, if_pos hno, answeredOnce_some]
      exact iff_of_true rfl fun _ h => absurd hno h
    · rw [if_neg hnotSet, if_neg hno]
      have hactive : (removeFromPendingList s i).activeSlot (-1) = s.activeSlot (-1) := rfl
      have hissue := @issueAt_isSome_iff cfg m (removeFromPendingList s i)
        (s.pendingList i).atGenData g
      rw [hactive] at hissue
      have hanswer : AnsweredOnce clientResponses ((issueAt cfg m (removeFromPendingList s i) g
          (s.pendingList i).atGenData).bind fun r => some (r.1,
            [.issue (s.pendingList i).atGenData.purpose r.2, .client (
              str "\x7b\"action\": \"at-inquiry\", \"aToken\":\"" ++ r.2 ++
                str "\", \"consent\":\"" ++ (s.pendingList i).consent ++ str "\"\x7d")])) ↔
          (issueAt cfg m (removeFromPendingList s i) g (s.pendingList i).atGenData).isSome :=
        answeredOnce_bind_some fun _ => rfl
      exact (hanswer.trans hissue).trans ⟨fun h _ _ => h, fun h => h hnotSet hno⟩

theorem consentInquiryResponse_answers :
    AnsweredOnce clientResponses (consentInquiryResponse cfg m s request) ↔
      InquirySafe m s request := by
  have hparts : InquirySafe m s request ↔ (extractGatingId request).isSome ∧
      ∀ g, extractGatingId request = some g → ∀ i, s.pendingSlot g = some i →
        AnsweredOnce clientResponses (inquirySlot cfg m s g i) := by
    simp only [extractGatingId_isSome_iff, inquirySlot_answers]
    exact ⟨fun h => ⟨h.sessionId, h.yield⟩, fun h => ⟨h.1, h.2⟩⟩
  rw [hparts]
  simp only [consentInquiryResponse, Option.bind_eq_bind, answeredOnce_bind]
  cases extractGatingId request with
  | none => simp
  | some g =>
    simp only [Option.some.injEq, exists_eq_left', Option.isSome_some, true_and, forall_eq']
    cases s.pendingSlot g with
    | none => simp [answeredOnce_some, clientResponses]
    | some i => simp

theorem generateClientResponse_once :
    RespondsOnce clientResponses (generateClientResponse cfg m s request) := by
  have hgrant : ∀ s payload, RespondsOnce clientResponses (grantRequest cfg m s payload) := by
    intro s payload
    unfold grantRequest
    dsimp only
    split
    · split
      · exact respondsOnce_bind fun _ => respondsOnce_some rfl
      · exact respondsOnce_some rfl
    · exact respondsOnce_bind fun _ => respondsOnce_some rfl
  have hslot : ∀ g i, RespondsOnce clientResponses (inquirySlot cfg m s g i) := by
    intro g i
    unfold inquirySlot
    dsimp only
    split
    · exact respondsOnce_some rfl
    · split
      · exact respondsOnce_some rfl
      · exact respondsOnce_bind fun _ => respondsOnce_some rfl
  unfold generateClientResponse
  split
  · apply respondsOnce_bind
    intro r
    cases r with
    | inl errResponse => exact respondsOnce_some rfl
    | inr payload =>
      apply respondsOnce_bind
      intro r
      dsimp only
      split
      · exact hgrant _ _
      · exact respondsOnce_some rfl
  · split
    · apply respondsOnce_bind
      intro g
      split
      · exact hslot g _
      · exact respondsOnce_some rfl
    · exact respondsOnce_some rfl

/-- What a message of a client comes to is in the bounds. -/
structure ClientSafe (cfg : Config) (m : Moment) (s : State) (request : GoString) : Prop where
  atRequest : contains request (str "at-request") = true → RequestSafe cfg m s request
  atInquiry : contains request (str "at-request") = false →
    contains request (str "at-inquiry") = true → InquirySafe m s request

theorem generateClientResponse_answers :
    AnsweredOnce clientResponses (generateClientResponse cfg m s request) ↔
      ClientSafe cfg m s request := by
  unfold generateClientResponse
  cases hrequest : contains request (str "at-request") with
  | true =>
    rw [if_pos rfl, accessTokenResponse_answers hrequest]
    exact ⟨fun h => ⟨fun _ => h, by simp [hrequest]⟩, fun h => h.atRequest hrequest⟩
  | false =>
    rw [if_neg Bool.false_ne_true]
    cases hinquiry : contains request (str "at-inquiry") with
    | true =>
      rw [if_pos rfl, consentInquiryResponse_answers]
      exact ⟨fun h => ⟨by simp [hrequest], fun _ _ => h⟩, fun h => h.atInquiry hrequest hinquiry⟩
    | false =>
      rw [if_neg Bool.false_ne_true, answeredOnce_some]
      exact iff_of_true rfl ⟨by simp [hrequest], by simp [hinquiry]⟩

end

/-- What a message of the ECF comes to is in the bounds: the message id is a string where
there is one, and so is the consent for a session. -/
structure EcfSafe (s : State) (message : GoString) : Prop where
  messageId : contains message (str "consent-reply") = true ∨
      contains message (str "consent-cancel") = true →
    ∀ requestMap, unmarshalMap message = some requestMap →
      valueAt requestMap (str "messageId") = .null ∨
        ∃ id, valueAt requestMap (str "messageId") = .str id
  consent : contains message (str "consent-reply") = true →
    ∀ g, ecfId message = some g → s.pendingSlot g ≠ none →
      ∀ requestMap, unmarshalMap message = some requestMap →
        ∃ consent, valueAt requestMap (str "consent") = .str consent

section

variable {s : State} {message : GoString}

theorem messageId_isSome_iff {requestMap : GoMap Json} : (messageId requestMap).isSome ↔
    valueAt requestMap (str "messageId") = .null ∨
      ∃ id, valueAt requestMap (str "messageId") = .str id := by
  unfold messageId
  cases valueAt requestMap (str "messageId") <;> simp [isNull, asString]

theorem asString_isSome_iff {v : Json} : (asString v).isSome ↔ ∃ t, v = .str t := by
  cases v <;> simp [asString]

/-- The number of an ECF message that has its members. -/
theorem ecfId_of_members {requestMap : GoMap Json} (hmap : unmarshalMap message = some requestMap) :
    ecfId message = (messageId requestMap).bind fun id => id.bind atoi := by
  simp only [ecfId, hmap, Option.bind_eq_bind, Option.bind_some]

theorem consentReplyResponse_isSome_iff :
    (consentReplyResponse s message).isSome ↔
      (∀ requestMap, unmarshalMap message = some requestMap → (messageId requestMap).isSome) ∧
        ∀ g, ecfId message = some g → s.pendingSlot g ≠ none →
          ∀ requestMap, unmarshalMap message = some requestMap →
            (asString (valueAt requestMap (str "consent"))).isSome := by
  unfold consentReplyResponse
  cases hmap : unmarshalMap message with
  | none => simp
  | some requestMap =>
    simp only [ecfId_of_members hmap, Option.some.injEq, forall_eq']
    cases messageId requestMap with
    | none => simp
    | some id =>
      cases id with
      | none => simp
      | some id =>
        simp only [Option.bind_eq_bind, Option.bind_some, Option.isSome_some, true_and]
        cases hnumber : atoi id with
        | none => simp
        | some g =>
          cases hslot : s.pendingSlot g with
          | none => simp [hslot]
          | some i =>
            cases asString (valueAt requestMap (str "consent")) with
            | none => simp [hslot]
            | some consent => simp [hslot]

theorem consentCancelResponse_isSome_iff :
    (consentCancelResponse s message).isSome ↔
      ∀ requestMap, unmarshalMap message = some requestMap → (messageId requestMap).isSome := by
  unfold consentCancelResponse
  cases hmap : unmarshalMap message with
  | none => simp
  | some requestMap =>
    simp only [Option.some.injEq, forall_eq']
    cases messageId requestMap with
    | none => simp
    | some id =>
      simp only [Option.bind_eq_bind, Option.bind_some, Option.isSome_some, iff_true]
      repeat' split
      all_goals rfl

theorem generateEcfResponse_answers :
    AnsweredOnce ecfMessages (generateEcfResponse s message) ↔ EcfSafe s message := by
  have hparts : EcfSafe s message ↔
      (contains message (str "consent-reply") = true ∨
          contains message (str "consent-cancel") = true →
        ∀ requestMap, unmarshalMap message = some requestMap → (messageId requestMap).isSome) ∧
      (contains message (str "consent-reply") = true →
        ∀ g, ecfId message = some g → s.pendingSlot g ≠ none →
          ∀ requestMap, unmarshalMap message = some requestMap →
            (asString (valueAt requestMap (str "consent"))).isSome) := by
    simp only [messageId_isSome_iff, asString_isSome_iff]
    exact ⟨fun h => ⟨h.messageId, h.consent⟩, fun h => ⟨h.1, h.2⟩⟩
  rw [hparts]
  unfold generateEcfResponse
  cases hreply : contains message (str "consent-reply") with
  | true =>
    simp only [if_true, true_or, forall_const, ← consentReplyResponse_isSome_iff]
    cases consentReplyResponse s message with
    | none => simp [AnsweredOnce]
    | some r => simp [AnsweredOnce, ecfMessages]
  | false =>
    simp only [Bool.false_eq_true, if_false, false_or, false_implies, and_true]
    cases hcancel : contains message (str "consent-cancel") with
    | true =>
      simp only [if_true, forall_const, ← @consentCancelResponse_isSome_iff s]
      cases hr : consentCancelResponse s message with
      | none => simp [AnsweredOnce]
      | some r =>
        obtain ⟨s', cancels, response⟩ := r
        obtain rfl | ⟨id, rfl⟩ := consentCancelResponse_effects hr
        · simp [AnsweredOnce, ecfMessages]
        · simp [AnsweredOnce, ecfMessages]
    | false => simp [AnsweredOnce, ecfMessages]

/-- The handling of a message of the ECF ends, with one response where it is a request. -/
def EcfHandled (s : State) (message : GoString) : Prop :=
  ∃ r, ecfStep s message = some r ∧
    (isEcfRequest message = true → (ecfMessages r.2).length = 1)

theorem ecfHandled_iff :
    EcfHandled s message ↔ (isEcfRequest message = true → EcfSafe s message) := by
  unfold EcfHandled ecfStep isEcfRequest
  rw [← generateEcfResponse_answers, AnsweredOnce]
  by_cases havailable : message = str "internal-ecfAvailable"
  · simp [havailable]
  · cases hstatus : contains message (str "status") with
    | true => simp [havailable]
    | false => simp [havailable]

end

end VissServer.AtServer
