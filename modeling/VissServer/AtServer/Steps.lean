import VissServer.AtServer.Server
import VissServer.Library.Runs

/-!
What one pass of the loop of the access token server can do: which entry a message
names, the ways in which the lists change, and the runs of the server.
-/
namespace VissServer.AtServer

open Go Utils

/-- The session id of an at-inquiry. -/
def inquiryId : Event → Option ℤ
  | .client request =>
      if contains request (str "at-request") then none
      else if contains request (str "at-inquiry") then extractGatingId request
      else none
  | _ => none

/-- The gating id in the messageId member of an ECF message. -/
def ecfId (message : GoString) : Option ℤ := do
  let id ← messageId (← unmarshalMap message)
  atoi (← id)

/-- Whether ecfStep passes a message on to generateEcfResponse. -/
def isEcfRequest (message : GoString) : Bool :=
  message ≠ str "internal-ecfAvailable" && ¬ contains message (str "status")

/-- The gating id of a consent-reply. -/
def replyId : Event → Option ℤ
  | .ecf message =>
      if isEcfRequest message ∧ contains message (str "consent-reply") then ecfId message
      else none
  | _ => none

/-- The text in the consent member of a consent-reply. -/
def replyConsent : Event → Option GoString
  | .ecf message => do asString (valueAt (← unmarshalMap message) (str "consent"))
  | _ => none

/-- The gating id of a consent-cancel. -/
def cancelId : Event → Option ℤ
  | .ecf message =>
      if isEcfRequest message ∧ ¬ contains message (str "consent-reply") ∧
          contains message (str "consent-cancel") then ecfId message
      else none
  | _ => none

/-- The payload of an at-request that passes all checks. -/
def accepted (cfg : Config) (m : Moment) (s : State) : Event → Option AtGenPayload
  | .client request =>
      if contains request (str "at-request") then
        match decodeRequest cfg request with
        | some (.inr payload) =>
            (validateRequest cfg m s.jtiCache payload).bind fun r =>
              if r.1 = [] then some payload else none
        | _ => none
      else none
  | _ => none

def Effect.isResponse : Effect → Bool
  | .client _ | .parent _ | .ecf _ => true
  | _ => false

/-- The changes that one step makes, each with the event that makes it. -/
inductive Change (cfg : Config) (m : Moment) (s : State) : Event → State → List Effect → Prop
  | quiet {e : Event} {s' : State} {effects : List Effect} :
      s'.pendingList = s.pendingList → s'.activeList = s.activeList →
      s'.gatingId = s.gatingId → s'.expiryTicker = s.expiryTicker →
      (∀ x ∈ effects, x.isResponse) →
      (∀ payload, accepted cfg m s e = some payload → checkifConsent cfg payload.purpose ∧
        (s.ecfAvailable = false ∨ s.pendingSlot (-1) = none)) →
      (∀ g, inquiryId e = some g → ∀ i, s.pendingSlot g = some i →
        (s.pendingList i).consent = str "NOT_SET") →
      (∀ g, replyId e = some g → s.pendingSlot g = none) →
      (∀ g, cancelId e = some g → s.pendingSlot g = none ∧ s.activeSlot g = none) →
      Change cfg m s e s' effects
  | ask {e : Event} {payload : AtGenPayload} {i : Slot} {expiry : GoString}
      {jtiCache : List GoString} {response : GoString} :
      accepted cfg m s e = some payload → checkifConsent cfg payload.purpose →
      s.ecfAvailable = true → s.pendingSlot (-1) = some i →
      extractFromToken payload.token (str "exp") = some expiry →
      Change cfg m s e
        (setExpiryTicker m.now ({ s with jtiCache }.setPending i
          { s.pendingList i with
            gatingId := newGatingId s, atGenData := payload, agtExpiryTime := expiry }))
        [.ecf (consentAsk cfg payload (newGatingId s)), .client response]
  | grant {e : Event} {payload : AtGenPayload} {s' : State} {jtiCache : List GoString}
      {response : GoString} :
      accepted cfg m s e = some payload → checkifConsent cfg payload.purpose = false →
      writeToActiveList m.now { s with jtiCache } (newGatingId s) (generateAt cfg m payload) =
        some s' →
      Change cfg m s e s'
        [.issue payload.purpose (generateAt cfg m payload), .client response]
  | refuse {e : Event} {g : ℤ} {i : Slot} {response : GoString} :
      inquiryId e = some g → s.pendingSlot g = some i →
      (s.pendingList i).consent = str "NO" →
      Change cfg m s e (removeFromPendingList s i) [.client response]
  | yield {e : Event} {g : ℤ} {i : Slot} {s' : State} {response : GoString} :
      inquiryId e = some g → s.pendingSlot g = some i →
      (s.pendingList i).consent ≠ str "NOT_SET" → (s.pendingList i).consent ≠ str "NO" →
      writeToActiveList m.now (removeFromPendingList s i) g
        (generateAt cfg m (s.pendingList i).atGenData) = some s' →
      Change cfg m s e s' [.issue (s.pendingList i).atGenData.purpose
        (generateAt cfg m (s.pendingList i).atGenData), .client response]
  | reply {e : Event} {g : ℤ} {i : Slot} {consent response : GoString} :
      replyId e = some g → s.pendingSlot g = some i → replyConsent e = some consent →
      Change cfg m s e (s.setPending i { s.pendingList i with consent }) [.ecf response]
  | cancelPending {e : Event} {g : ℤ} {i : Slot} {response : GoString} :
      cancelId e = some g → s.pendingSlot g = some i →
      Change cfg m s e (removeFromPendingList s i) [.ecf response]
  | cancelActive {e : Event} {g : ℤ} {i : Slot} {id response : GoString} :
      cancelId e = some g → s.pendingSlot g = none → s.activeSlot g = some i →
      atoi id = some g →
      Change cfg m s e (removeFromActiveList s i) [.cancel id, .ecf response]
  | purgePending {i : Slot} {expiry : ℤ} :
      (s.pendingList i).gatingId ≠ -1 → atoi (s.pendingList i).agtExpiryTime = some expiry →
      expiry * second < m.now →
      Change cfg m s .expiryTick (setExpiryTicker m.now (removeFromPendingList s i)) []
  | purgeActive {i : Slot} {expiry : ℤ} :
      (s.activeList i).gatingId ≠ -1 → atoi (s.activeList i).atExpiryTime = some expiry →
      expiry * second < m.now →
      Change cfg m s .expiryTick (setExpiryTicker m.now (removeFromActiveList s i))
        [.cancel (itoa (s.activeList i).gatingId)]

section

variable {cfg : Config} {m : Moment} {s s' : State} {effects : List Effect}

/-- A step that only sends responses. -/
theorem Change.same {e : Event} {response : Effect} (hresponse : response.isResponse)
    (haccepted : ∀ payload, accepted cfg m s e = some payload →
      checkifConsent cfg payload.purpose ∧
        (s.ecfAvailable = false ∨ s.pendingSlot (-1) = none))
    (hinquiry : ∀ g, inquiryId e = some g → ∀ i, s.pendingSlot g = some i →
      (s.pendingList i).consent = str "NOT_SET")
    (hreply : ∀ g, replyId e = some g → s.pendingSlot g = none)
    (hcancel : ∀ g, cancelId e = some g → s.pendingSlot g = none ∧ s.activeSlot g = none) :
    Change cfg m s e s [response] :=
  .quiet rfl rfl rfl rfl (by simpa using hresponse) haccepted hinquiry hreply hcancel

theorem grantRequest_change {request : GoString} {payload : AtGenPayload}
    {jtiCache : List GoString} (hnoInquiry : inquiryId (.client request) = none)
    (haccepted : accepted cfg m s (.client request) = some payload)
    (h : grantRequest cfg m { s with jtiCache } payload = some (s', effects)) :
    Change cfg m s (.client request) s' effects := by
  have hquiet : checkifConsent cfg payload.purpose →
      (s.ecfAvailable = false ∨ s.pendingSlot (-1) = none) → ∀ responses : List Effect,
      (∀ x ∈ responses, x.isResponse) →
      Change cfg m s (.client request) { s with jtiCache } responses := by
    intro hconsent hrest responses hresponses
    refine .quiet rfl rfl rfl rfl hresponses ?_ (by simp [hnoInquiry]) (by simp [replyId])
      (by simp [cancelId])
    intro payload' h'
    rw [haccepted, Option.some.injEq] at h'
    exact ⟨h' ▸ hconsent, hrest⟩
  unfold grantRequest at h
  by_cases hconsent : checkifConsent cfg payload.purpose = true
  · rw [if_pos hconsent] at h
    by_cases hecf : s.ecfAvailable = true
    · rw [if_pos hecf] at h
      simp only [Option.bind_eq_bind, Option.bind_eq_some_iff, Option.some.injEq,
        Prod.mk.injEq] at h
      obtain ⟨s₁, hwrite, rfl, rfl⟩ := h
      rcases writeToPendingList_some hwrite with ⟨hfull, rfl⟩ | ⟨i, expiry, hi, hexpiry, rfl⟩
      · exact hquiet hconsent (.inr hfull) _ (by simp [Effect.isResponse])
      · exact .ask haccepted hconsent hecf hi hexpiry
    · rw [if_neg hecf, Option.some.injEq, Prod.mk.injEq] at h
      obtain ⟨rfl, rfl⟩ := h
      exact hquiet hconsent (.inl (by simpa using hecf)) _ (by simp [Effect.isResponse])
  · rw [if_neg hconsent] at h
    simp only [issueAt, Option.bind_eq_bind, Option.bind_eq_some_iff, Option.some.injEq,
      Prod.mk.injEq] at h
    obtain ⟨⟨s₁, atoken⟩, ⟨s₂, hwrite, heq⟩, rfl, rfl⟩ := h
    obtain ⟨rfl, rfl⟩ := Prod.mk.inj heq
    exact .grant haccepted (by simpa using hconsent) hwrite

theorem accessTokenResponse_change {request : GoString}
    (hrequest : contains request (str "at-request") = true)
    (h : accessTokenResponse cfg m s request = some (s', effects)) :
    Change cfg m s (.client request) s' effects := by
  have hnoInquiry : inquiryId (.client request) = none := by simp [inquiryId, hrequest]
  have hquiet : accepted cfg m s (.client request) = none → ∀ jtiCache response,
      Change cfg m s (.client request) { s with jtiCache } [.client response] := by
    intro hnone jtiCache response
    exact .quiet rfl rfl rfl rfl (by simp [Effect.isResponse]) (by simp [hnone])
      (by simp [hnoInquiry]) (by simp [replyId]) (by simp [cancelId])
  simp only [accessTokenResponse, Option.bind_eq_bind, Option.bind_eq_some_iff] at h
  obtain ⟨decoded, hdecoded, h⟩ := h
  cases decoded with
  | inl errResponse =>
    simp only [Option.some.injEq, Prod.mk.injEq] at h
    obtain ⟨rfl, rfl⟩ := h
    exact hquiet (by simp [accepted, hrequest, hdecoded]) s.jtiCache errResponse
  | inr payload =>
    simp only [Option.bind_eq_some_iff] at h
    obtain ⟨⟨errResponse, jtiCache⟩, hvalidate, h⟩ := h
    by_cases herr : errResponse = []
    · rw [if_pos herr] at h
      exact grantRequest_change hnoInquiry
        (by simp [accepted, hrequest, hdecoded, hvalidate, herr]) h
    · rw [if_neg herr, Option.some.injEq, Prod.mk.injEq] at h
      obtain ⟨rfl, rfl⟩ := h
      exact hquiet (by simp [accepted, hrequest, hdecoded, hvalidate, herr]) jtiCache errResponse

theorem inquirySlot_change {e : Event} {g : ℤ} {i : Slot} (hinquiry : inquiryId e = some g)
    (hi : s.pendingSlot g = some i) (haccepted : accepted cfg m s e = none)
    (hreply : replyId e = none) (hcancel : cancelId e = none)
    (h : inquirySlot cfg m s g i = some (s', effects)) : Change cfg m s e s' effects := by
  unfold inquirySlot at h
  by_cases hnotset : (s.pendingList i).consent = str "NOT_SET"
  · rw [if_pos hnotset, Option.some.injEq, Prod.mk.injEq] at h
    obtain ⟨rfl, rfl⟩ := h
    refine .same rfl (by simp [haccepted]) ?_ (by simp [hreply]) (by simp [hcancel])
    intro g' hg' i' hi'
    rw [hinquiry, Option.some.injEq] at hg'
    rw [← hg', hi, Option.some.injEq] at hi'
    exact hi' ▸ hnotset
  · rw [if_neg hnotset] at h
    by_cases hno : (s.pendingList i).consent = str "NO"
    · rw [if_pos hno, Option.some.injEq, Prod.mk.injEq] at h
      obtain ⟨rfl, rfl⟩ := h
      exact .refuse hinquiry hi hno
    · rw [if_neg hno] at h
      simp only [issueAt, Option.bind_eq_bind, Option.bind_eq_some_iff, Option.some.injEq,
        Prod.mk.injEq] at h
      obtain ⟨⟨s₁, atoken⟩, ⟨s₂, hwrite, heq⟩, rfl, rfl⟩ := h
      obtain ⟨rfl, rfl⟩ := Prod.mk.inj heq
      exact .yield hinquiry hi hnotset hno hwrite

theorem generateClientResponse_change {request : GoString}
    (h : generateClientResponse cfg m s request = some (s', effects)) :
    Change cfg m s (.client request) s' effects := by
  unfold generateClientResponse at h
  by_cases hrequest : contains request (str "at-request") = true
  · rw [if_pos hrequest] at h
    exact accessTokenResponse_change hrequest h
  · rw [if_neg hrequest] at h
    have haccepted : accepted cfg m s (.client request) = none := by simp [accepted, hrequest]
    by_cases hinq : contains request (str "at-inquiry") = true
    · rw [if_pos hinq] at h
      simp only [consentInquiryResponse, Option.bind_eq_bind, Option.bind_eq_some_iff] at h
      obtain ⟨g, hg, h⟩ := h
      have hinquiry : inquiryId (.client request) = some g := by
        simpa [inquiryId, hrequest, hinq] using hg
      cases hi : s.pendingSlot g with
      | some i =>
        rw [hi] at h
        exact inquirySlot_change hinquiry hi haccepted rfl rfl h
      | none =>
        rw [hi, Option.some.injEq, Prod.mk.injEq] at h
        obtain ⟨rfl, rfl⟩ := h
        refine .same rfl (by simp [haccepted]) ?_ (by simp [replyId]) (by simp [cancelId])
        intro g' hg' i' hi'
        rw [hinquiry, Option.some.injEq] at hg'
        simp [← hg', hi] at hi'
    · rw [if_neg hinq, Option.some.injEq, Prod.mk.injEq] at h
      obtain ⟨rfl, rfl⟩ := h
      exact .same rfl (by simp [haccepted]) (by simp [inquiryId, hrequest, hinq])
        (by simp [replyId]) (by simp [cancelId])

/-- The responses to an ECF message that names no entry. -/
theorem Change.ecfQuiet {message response : GoString}
    (hreply : ∀ g, replyId (.ecf message) = some g → s.pendingSlot g = none)
    (hcancel : ∀ g, cancelId (.ecf message) = some g →
      s.pendingSlot g = none ∧ s.activeSlot g = none) :
    Change cfg m s (.ecf message) s [.ecf response] :=
  .same rfl (by simp [accepted]) (by simp [inquiryId]) hreply hcancel

theorem consentReplyResponse_change {message response : GoString}
    (hrequest : isEcfRequest message) (hkind : contains message (str "consent-reply") = true)
    (h : consentReplyResponse s message = some (s', response)) :
    Change cfg m s (.ecf message) s' [.ecf response] := by
  have hid : replyId (.ecf message) = ecfId message := by simp [replyId, hrequest, hkind]
  have hcancel : cancelId (.ecf message) = none := by simp [cancelId, hkind]
  have hquiet : ∀ response, (∀ g, ecfId message = some g → s.pendingSlot g = none) →
      Change cfg m s (.ecf message) s [.ecf response] := fun response hnone =>
    .ecfQuiet (by simpa [hid] using hnone) (by simp [hcancel])
  unfold consentReplyResponse at h
  cases hmap : unmarshalMap message with
  | none =>
    simp only [hmap, Option.some.injEq, Prod.mk.injEq] at h
    obtain ⟨rfl, rfl⟩ := h
    exact hquiet _ (by simp [ecfId, hmap])
  | some requestMap =>
    simp only [hmap, Option.bind_eq_bind, Option.bind_eq_some_iff] at h
    obtain ⟨id, hmessageId, h⟩ := h
    cases id with
    | none =>
      simp only [Option.some.injEq, Prod.mk.injEq] at h
      obtain ⟨rfl, rfl⟩ := h
      exact hquiet _ (by simp [ecfId, hmap, hmessageId])
    | some id =>
      cases hatoi : atoi id with
      | none =>
        simp only [hatoi, Option.some.injEq, Prod.mk.injEq] at h
        obtain ⟨rfl, rfl⟩ := h
        exact hquiet _ (by simp [ecfId, hmap, hmessageId, hatoi])
      | some g =>
        have hg : ecfId message = some g := by simp [ecfId, hmap, hmessageId, hatoi]
        cases hi : s.pendingSlot g with
        | none =>
          simp only [hatoi, hi, Option.some.injEq, Prod.mk.injEq] at h
          obtain ⟨rfl, rfl⟩ := h
          exact hquiet _ (by simp [hg, hi])
        | some i =>
          simp only [hatoi, hi, Option.bind_eq_some_iff, Option.some.injEq, Prod.mk.injEq] at h
          obtain ⟨consent, hconsent, rfl, rfl⟩ := h
          exact .reply (hid.trans hg) hi (by simp [replyConsent, hmap, hconsent])

theorem consentCancelResponse_change {message response : GoString} {cancels : List Effect}
    (hrequest : isEcfRequest message) (hkind : contains message (str "consent-reply") = false)
    (hcancel : contains message (str "consent-cancel") = true)
    (h : consentCancelResponse s message = some (s', cancels, response)) :
    Change cfg m s (.ecf message) s' (cancels ++ [.ecf response]) := by
  have hid : cancelId (.ecf message) = ecfId message := by
    simp [cancelId, hrequest, hkind, hcancel]
  have hreply : replyId (.ecf message) = none := by simp [replyId, hkind]
  have hquiet : ∀ response, (∀ g, ecfId message = some g →
      s.pendingSlot g = none ∧ s.activeSlot g = none) →
      Change cfg m s (.ecf message) s [.ecf response] := fun response hnone =>
    .ecfQuiet (by simp [hreply]) (by simpa [hid] using hnone)
  unfold consentCancelResponse at h
  cases hmap : unmarshalMap message with
  | none =>
    simp only [hmap, Option.some.injEq, Prod.mk.injEq] at h
    obtain ⟨rfl, rfl, rfl⟩ := h
    exact hquiet _ (by simp [ecfId, hmap])
  | some requestMap =>
    simp only [hmap, Option.bind_eq_bind, Option.bind_eq_some_iff] at h
    obtain ⟨id, hmessageId, h⟩ := h
    cases id with
    | none =>
      simp only [Option.some.injEq, Prod.mk.injEq] at h
      obtain ⟨rfl, rfl, rfl⟩ := h
      exact hquiet _ (by simp [ecfId, hmap, hmessageId])
    | some id =>
      cases hatoi : atoi id with
      | none =>
        simp only [hatoi, Option.some.injEq, Prod.mk.injEq] at h
        obtain ⟨rfl, rfl, rfl⟩ := h
        exact hquiet _ (by simp [ecfId, hmap, hmessageId, hatoi])
      | some g =>
        have hg : ecfId message = some g := by simp [ecfId, hmap, hmessageId, hatoi]
        cases hi : s.pendingSlot g with
        | some i =>
          simp only [hatoi, hi, Option.some.injEq, Prod.mk.injEq] at h
          obtain ⟨rfl, rfl, rfl⟩ := h
          exact .cancelPending (hid.trans hg) hi
        | none =>
          cases hj : s.activeSlot g with
          | some j =>
            simp only [hatoi, hi, hj, Option.some.injEq, Prod.mk.injEq] at h
            obtain ⟨rfl, rfl, rfl⟩ := h
            exact .cancelActive (hid.trans hg) hi hj hatoi
          | none =>
            simp only [hatoi, hi, hj, Option.some.injEq, Prod.mk.injEq] at h
            obtain ⟨rfl, rfl, rfl⟩ := h
            exact hquiet _ (by simp [hg, hi, hj])

theorem ecfStep_change {message : GoString} (h : ecfStep s message = some (s', effects)) :
    Change cfg m s (.ecf message) s' effects := by
  have hquiet : isEcfRequest message = false → ∀ ecfAvailable,
      Change cfg m s (.ecf message) { s with ecfAvailable } [] := fun hno _ =>
    .quiet rfl rfl rfl rfl (by simp) (by simp [accepted]) (by simp [inquiryId])
      (by simp [replyId, hno]) (by simp [cancelId, hno])
  unfold ecfStep at h
  by_cases havailable : message = str "internal-ecfAvailable"
  · rw [if_pos havailable, Option.some.injEq, Prod.mk.injEq] at h
    obtain ⟨rfl, rfl⟩ := h
    exact hquiet (by simp [isEcfRequest, havailable]) true
  · rw [if_neg havailable] at h
    by_cases hstatus : contains message (str "status") = true
    · rw [if_pos hstatus, Option.some.injEq, Prod.mk.injEq] at h
      obtain ⟨rfl, rfl⟩ := h
      exact hquiet (by simp [isEcfRequest, hstatus]) s.ecfAvailable
    · rw [if_neg hstatus, generateEcfResponse] at h
      have hrequest : isEcfRequest message := by simp [isEcfRequest, havailable, hstatus]
      by_cases hkind : contains message (str "consent-reply") = true
      · simp only [if_pos hkind, Option.map_eq_some_iff, Prod.mk.injEq] at h
        obtain ⟨⟨s₁, response⟩, hresponse, rfl, rfl⟩ := h
        exact consentReplyResponse_change hrequest hkind hresponse
      · rw [if_neg hkind] at h
        by_cases hcancel : contains message (str "consent-cancel") = true
        · simp only [if_pos hcancel, Option.map_eq_some_iff, Prod.mk.injEq] at h
          obtain ⟨⟨s₁, cancels, response⟩, hresponse, rfl, rfl⟩ := h
          exact consentCancelResponse_change hrequest (by simpa using hkind) hcancel hresponse
        · rw [if_neg hcancel, Option.some.injEq, Prod.mk.injEq] at h
          obtain ⟨rfl, rfl⟩ := h
          exact .ecfQuiet (by simp [replyId, hkind]) (by simp [cancelId, hkind, hcancel])

theorem Change.noTick {s' : State} {effects : List Effect}
    (h : s' = s ∧ effects = []) : Change cfg m s .expiryTick s' effects := by
  obtain ⟨rfl, rfl⟩ := h
  exact .quiet rfl rfl rfl rfl (by simp) (by simp [accepted]) (by simp [inquiryId])
    (by simp [replyId]) (by simp [cancelId])

theorem stopsPurge_some {now gatingId listExpiry : ℤ} {expiry : GoString}
    (h : stopsPurge now gatingId expiry = true) (hexpiry : atoi expiry = some listExpiry) :
    gatingId ≠ -1 ∧ listExpiry * second < now := by
  simpa [stopsPurge, hexpiry] using h

theorem expiryStep_change : Change cfg m s .expiryTick (expiryStep m s).1 (expiryStep m s).2 := by
  unfold expiryStep purgeLists
  cases hpending : firstSlot (fun e => stopsPurge m.now e.gatingId e.agtExpiryTime)
      s.pendingList with
  | some i =>
    cases hexpiry : atoi (s.pendingList i).agtExpiryTime with
    | none => exact .noTick (by simp [hexpiry])
    | some expiry =>
      have hstops := firstSlot_some hpending
      obtain ⟨hlive, hpast⟩ := stopsPurge_some hstops hexpiry
      simp only [hexpiry, Option.isNone_some, Bool.false_eq_true, if_false]
      exact .purgePending hlive hexpiry hpast
  | none =>
    cases hactive : firstSlot (fun e => stopsPurge m.now e.gatingId e.atExpiryTime)
        s.activeList with
    | none => exact .noTick (by simp)
    | some i =>
      cases hexpiry : atoi (s.activeList i).atExpiryTime with
      | none => exact .noTick (by simp [hexpiry])
      | some expiry =>
        have hstops := firstSlot_some hactive
        obtain ⟨hlive, hpast⟩ := stopsPurge_some hstops hexpiry
        simp only [hexpiry, Option.isNone_some, Bool.false_eq_true, if_false]
        exact .purgeActive hlive hexpiry hpast

/-- Every step makes one of the changes. -/
theorem step_change {e : Event} (h : step cfg m s e = some (s', effects)) :
    Change cfg m s e s' effects := by
  cases e with
  | client request => exact generateClientResponse_change h
  | parent request =>
    simp only [step, Option.map_eq_some_iff, Prod.mk.injEq] at h
    obtain ⟨response, -, rfl, rfl⟩ := h
    exact .same rfl (by simp [accepted]) (by simp [inquiryId]) (by simp [replyId])
      (by simp [cancelId])
  | ecf message => exact ecfStep_change h
  | expiryTick =>
    simp only [step, Option.some.injEq] at h
    have hchange : Change cfg m s .expiryTick (expiryStep m s).1 (expiryStep m s).2 :=
      expiryStep_change
    rwa [h] at hchange
  | deleteJti jti =>
    simp only [step, Option.some.injEq, Prod.mk.injEq] at h
    obtain ⟨rfl, rfl⟩ := h
    exact .quiet rfl rfl rfl rfl (by simp) (by simp [accepted]) (by simp [inquiryId])
      (by simp [replyId]) (by simp [cancelId])

end

/-- The loop of AtServerInit as a machine. -/
def serverStep (cfg : Config) (s : State) (e : Moment × Event) : Option (State × List Effect) :=
  step cfg e.1 s e.2

def Started (s : State) : Prop := ∃ seed now, s = State.initial seed now

abbrev ServerMove := Runs.Move State (Moment × Event) (List Effect)

abbrev ServerHistory := Runs.History State (Moment × Event) (List Effect)

abbrev ServerRun (cfg : Config) := Runs.Run (serverStep cfg) Started

/-- A run from the seed 0, given by its events and a property of its history. -/
theorem exists_serverRun (cfg : Config) (es : List (Moment × Event)) (p : ServerHistory → Prop)
    (hes : ∃ r ∈ Runs.replay (serverStep cfg) [] (State.initial 0 0) es, p r.1) :
    ∃ h s, ServerRun cfg h s ∧ p h :=
  Runs.exists_run_of_replay es p ⟨0, 0, rfl⟩ hes

theorem change_of_move {cfg : Config} {x : ServerMove} (hx : x.Of (serverStep cfg)) :
    Change cfg x.event.1 x.before x.event.2 x.after x.output :=
  step_change hx

section

variable {cfg : Config} {m : Moment} {s : State} {e : Event} {payload : AtGenPayload}

theorem accepted_inquiryId (h : accepted cfg m s e = some payload) : inquiryId e = none := by
  cases e with
  | client request =>
    by_cases hrequest : contains request (str "at-request") = true
    · simp [inquiryId, hrequest]
    · simp [accepted, hrequest] at h
  | parent request => rfl
  | ecf message => rfl
  | expiryTick => rfl
  | deleteJti jti => rfl

theorem accepted_replyId (h : accepted cfg m s e = some payload) : replyId e = none := by
  cases e with
  | ecf message => simp [accepted] at h
  | client request => rfl
  | parent request => rfl
  | expiryTick => rfl
  | deleteJti jti => rfl

theorem accepted_cancelId (h : accepted cfg m s e = some payload) : cancelId e = none := by
  cases e with
  | ecf message => simp [accepted] at h
  | client request => rfl
  | parent request => rfl
  | expiryTick => rfl
  | deleteJti jti => rfl

theorem inquiryId_replyId {g : ℤ} (h : inquiryId e = some g) : replyId e = none := by
  cases e with
  | ecf message => simp [inquiryId] at h
  | client request => rfl
  | parent request => rfl
  | expiryTick => rfl
  | deleteJti jti => rfl

theorem replyId_inquiryId {g : ℤ} (h : replyId e = some g) : inquiryId e = none := by
  cases e with
  | client request => simp [replyId] at h
  | parent request => rfl
  | ecf message => rfl
  | expiryTick => rfl
  | deleteJti jti => rfl

theorem cancelId_inquiryId {g : ℤ} (h : cancelId e = some g) : inquiryId e = none := by
  cases e with
  | client request => simp [cancelId] at h
  | parent request => rfl
  | ecf message => rfl
  | expiryTick => rfl
  | deleteJti jti => rfl

theorem cancelId_replyId {g : ℤ} (h : cancelId e = some g) : replyId e = none := by
  cases e with
  | ecf message =>
    by_cases hkind : contains message (str "consent-reply") = true
    · simp [cancelId, hkind] at h
    · simp [replyId, hkind]
  | client request => rfl
  | parent request => rfl
  | expiryTick => rfl
  | deleteJti jti => rfl

end

/-- A purpose that some signal makes subject to consent or not, an RSA key, and the
values of the hash functions on the texts of the sample messages. -/
def sampleConfig (consent : Bool) : Config where
  crypto :=
    { sha256 := fun _ => (Base64.decodeString (str
        "2cvHDHZ-UA_QlGSnUJ-oh_Rq2yDoyHD48n6DqmNlyE4")).1
      hmacSha256 := fun _ _ => (Base64.decodeString (str
        "SAyLSDTI03MvEyzCHnhy0s3VHucNF-uIqy7s1e-ZVS8")).1
      verifyPkcs1v15 := fun _ _ signature => signature = (Base64.decodeString (str (
        "XbKzAtxuU1-rz2XZgwedrX9Cp2KqDGLB-FzanK2KBo8YTHrZNWpkFHP-RNuraPtRcaC7JnrfnXvH0oYlo2P_" ++
        "yA"))).1
      ecdsaVerify := fun _ _ _ _ => false }
  agtKey :=
    { n := 0xD0A3B7D3C671190C348E666079091E4C4CD5D53AE926CA280C241187E9CD633A5EE93101260EE7BEA97B30B270230CA27F67527B4925E0A71611719DE6C86559
      e := 65537 }
  pList := [{
    short := str "fuel"
    context := [{ user := [str "owner"], app := [str "oem"], device := [str "car"] }]
    access := some [{ path := str "Vehicle.FuelLevel", permission := str "read-only" }] }]
  sList := []
  searchValidation := fun _ => if consent then 11 else 1
  searchNodes := fun path => [path]

def sampleMoment : Moment where
  now := 1700000000 * second
  uuid := some (str "4fc2")
  range := id
  range_perm := GoMap.perm_id

/-- An at-request with a grant token that is signed under the sample key. -/
def sampleRequest : GoString := str (
  "\x7b\"action\":\"at-request\",\"purpose\":\"fuel\",\"agToken\":\"" ++
  "eyJhbGciOiJSUzI1NiIsInR5cCI6IkpXVCJ9." ++
  "eyJpYXQiOiIxNjk5OTk5MDAwIiwiZXhwIjoiMTcwMDAwMzYwMCIsImNseCI6Im93bmVyK29lbStjYXIifQ." ++
  "XbKzAtxuU1-rz2XZgwedrX9Cp2KqDGLB-FzanK2KBo8YTHrZNWpkFHP-RNuraPtRcaC7JnrfnXvH0oYlo2P_yA\"\x7d")

/-- The core's request to validate the token that sampleRequest is granted. -/
def sampleValidation : GoString := str (
  "\x7b\"token\":\"eyJhbGciOiJIUzI1NiIsInR5cCI6IkpXVCJ9." ++
  "eyJpYXQiOiIxNzAwMDAwMDAwIiwiZXhwIjoiMTcwMDAwMzYwMCIsInNjcCI6ImZ1ZWwiLCJjbHgiOiJvd25lcitv" ++
  "ZW0rY2FyIiwiYXVkIjoidzNvcmcvZ2VuMiIsImp0aSI6IjRmYzIifQ." ++
  "SAyLSDTI03MvEyzCHnhy0s3VHucNF-uIqy7s1e-ZVS8\"," ++
  "\"paths\":[\"Vehicle.FuelLevel\"],\"action\":\"get\",\"validation\":\"read-write\"\x7d")

end VissServer.AtServer
