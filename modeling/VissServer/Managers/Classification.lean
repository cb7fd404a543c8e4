import VissServer.AtServer.Server
import VissServer.Go.JsonTokens
import VissServer.GrpcMgr.Manager
import VissServer.ServiceMgr.Loop

/-!
Messages that are told apart by a word in their text (wsMgr.go, grpcMgr.go, serviceMgr.go,
atServer.go). The word is searched for in the whole text, so that any string of the message can
have it.
-/
namespace VissServer.Managers

open Go
open AtServer (generateParentResponse generateClientResponse generateEcfResponse)
open AtServer (noScopeResponse tokenValidationResponse accessTokenResponse consentInquiryResponse)
open AtServer (consentReplyResponse consentCancelResponse)
open GrpcMgr (isMultipleEvents updateRoutingList getSubscribeRoutingData endStream Tables)
open ServiceMgr (awaitsResponse)

/-! ## The decisions -/

/-- The two channels that the websocket manager has for each client. -/
inductive WsChannel
  | clientBackendChan
  | wsClientChan
  deriving DecidableEq

/-- The number of channels of each kind. -/
def maxWsClients : ℕ := 20

theorem toNat_lt_maxWsClients {clientId : ℤ} (h : 0 ≤ clientId ∧ clientId < maxWsClients) :
    clientId.toNat < maxWsClients := by
  omega

/-- RemoveRoutingForwardResponse of the websocket manager: the channel, its index and the text
that is sent to it. An index of no channel panics. -/
def removeRoutingForwardResponse (response : GoString) :
    MayPanic (WsChannel × Fin maxWsClients × GoString) := do
  let (trimmedResponse, clientId) ← removeInternalData response
  let channel :=
    if contains trimmedResponse (str "\"subscription\"") then .clientBackendChan else .wsClientChan
  if h : 0 ≤ clientId ∧ clientId < maxWsClients then
    some (channel, ⟨clientId.toNat, toNat_lt_maxWsClients h⟩, trimmedResponse)
  else none

/-- The branch of updateRoutingList that ends the stream of another call. -/
def releasesStream (resp : GoString) (isMultipleEvent : Bool) : Bool :=
  isMultipleEvent && contains resp (str "unsubscribe")

/-- What the core asks of the access token server. -/
inductive ParentRequest
  | noScope
  | tokenValidation
  deriving DecidableEq

def parentRequest (input : GoString) : ParentRequest :=
  if contains input (str "context") then .noScope else .tokenValidation

/-- What a client asks of it. -/
inductive ClientRequest
  | accessToken
  | consentInquiry
  | unknown
  deriving DecidableEq

def clientRequest (input : GoString) : ClientRequest :=
  if contains input (str "at-request") then .accessToken
  else if contains input (str "at-inquiry") then .consentInquiry
  else .unknown

/-- What the external consent framework asks of it. -/
inductive EcfRequest
  | consentReply
  | consentCancel
  | unknown
  deriving DecidableEq

def ecfRequest (input : GoString) : EcfRequest :=
  if contains input (str "consent-reply") then .consentReply
  else if contains input (str "consent-cancel") then .consentCancel
  else .unknown

/-- The action member of the object is this word. -/
def ActionIs (object : GoMap Json) (word : String) : Prop :=
  asString (valueAt object (str "action")) = some (str word)

instance (object : GoMap Json) (word : String) : Decidable (ActionIs object word) :=
  inferInstanceAs (Decidable (_ = _))

/-- A context stands for a no-scope request. -/
def askedByParent (object : GoMap Json) : ParentRequest :=
  if isNull (valueAt object (str "context")) then .tokenValidation else .noScope

def askedByClient (object : GoMap Json) : ClientRequest :=
  if ActionIs object "at-request" then .accessToken
  else if ActionIs object "at-inquiry" then .consentInquiry
  else .unknown

def askedByEcf (object : GoMap Json) : EcfRequest :=
  if ActionIs object "consent-reply" then .consentReply
  else if ActionIs object "consent-cancel" then .consentCancel
  else .unknown

/-- A word in one of the strings tells whether the action is this word. -/
def Tells (text : GoString) (object : GoMap Json) (word : String) : Prop :=
  ActionIs object word ↔ Mentions text (str word)

theorem parseText_of_unmarshalMap {text : GoString} {object : GoMap Json}
    (h : unmarshalMap text = some object) : ∃ v, parseText text = some v := by
  unfold unmarshalMap at h
  cases hparse : parseText text with
  | none =>
    rw [hparse] at h
    cases h
  | some v => exact ⟨v, rfl⟩

/-- Two choices among three agree where their first conditions do, and their second ones behind
a first that fails. -/
theorem ite_ite_eq_iff {α : Type*} {a b c : α} (hab : a ≠ b) (hac : a ≠ c) (hbc : b ≠ c)
    {M₁ M₂ A₁ A₂ : Prop} [Decidable M₁] [Decidable M₂] [Decidable A₁] [Decidable A₂] :
    ((if M₁ then a else if M₂ then b else c) = if A₁ then a else if A₂ then b else c) ↔
      (A₁ ↔ M₁) ∧ (M₁ ∨ (A₂ ↔ M₂)) := by
  by_cases hM₁ : M₁
  · by_cases hA₁ : A₁
    · simp [hM₁, hA₁]
    · by_cases hA₂ : A₂
      · simp [hM₁, hA₁, hA₂, hab]
      · simp [hM₁, hA₁, hA₂, hac]
  · by_cases hA₁ : A₁
    · by_cases hM₂ : M₂
      · simp [hM₁, hA₁, hM₂, hab.symm]
      · simp [hM₁, hA₁, hM₂, hac.symm]
    · by_cases hM₂ : M₂ <;> by_cases hA₂ : A₂ <;> simp [hM₁, hA₁, hM₂, hA₂, hbc, hbc.symm]

section Words

variable {text : GoString} {object : GoMap Json} (h : unmarshalMap text = some object)

include h

theorem contains_word (word : GoString) (hword : IsWord word) :
    contains text word = true ↔ Mentions text word := by
  obtain ⟨v, hparse⟩ := parseText_of_unmarshalMap h
  exact contains_iff_mentions hword hparse

theorem isMultipleEvents_iff : isMultipleEvents text = true ↔
    Mentions text (str "subscribe") ∧ ¬ Mentions text (str "unsubscribe") := by
  rw [← contains_word h (str "subscribe") (by decide),
    ← contains_word h (str "unsubscribe") (by decide), isMultipleEvents,
    Bool.and_eq_true, Bool.not_eq_true', Bool.not_eq_true, and_comm]

theorem releasesStream_iff (isMultipleEvent : Bool) : releasesStream text isMultipleEvent = true ↔
    isMultipleEvent = true ∧ Mentions text (str "unsubscribe") := by
  rw [← contains_word h (str "unsubscribe") (by decide), releasesStream, Bool.and_eq_true]

theorem awaitsResponse_iff : awaitsResponse text = false ↔
    Mentions text (str "internal-killsubscriptions") := by
  rw [← contains_word h (str "internal-killsubscriptions") (by decide), awaitsResponse,
    decide_eq_false_iff_not, not_not]

theorem parentRequest_iff : parentRequest text = askedByParent object ↔
    (isNull (valueAt object (str "context")) = false ↔ Mentions text (str "context")) := by
  rw [← contains_word h (str "context") (by decide), parentRequest, askedByParent]
  cases contains text (str "context") with
  | true => cases isNull (valueAt object (str "context")) <;> simp
  | false => cases isNull (valueAt object (str "context")) <;> simp

theorem clientRequest_iff : clientRequest text = askedByClient object ↔
    Tells text object "at-request" ∧
      (Mentions text (str "at-request") ∨ Tells text object "at-inquiry") := by
  unfold Tells
  rw [← contains_word h (str "at-request") (by decide),
    ← contains_word h (str "at-inquiry") (by decide)]
  exact ite_ite_eq_iff (by decide) (by decide) (by decide)

theorem ecfRequest_iff : ecfRequest text = askedByEcf object ↔
    Tells text object "consent-reply" ∧
      (Mentions text (str "consent-reply") ∨ Tells text object "consent-cancel") := by
  unfold Tells
  rw [← contains_word h (str "consent-reply") (by decide),
    ← contains_word h (str "consent-cancel") (by decide)]
  exact ite_ite_eq_iff (by decide) (by decide) (by decide)

theorem notifies_iff {response : GoString} {channel : WsChannel} {index : Fin maxWsClients}
    (hsent : removeRoutingForwardResponse response = some (channel, index, text)) :
    channel = .clientBackendChan ↔ MentionsWhole text (str "subscription") := by
  obtain ⟨v, hparse⟩ := parseText_of_unmarshalMap h
  have hquoted : str "\"subscription\"" = betweenQuotes (str "subscription") := rfl
  rw [← contains_betweenQuotes_iff (by decide) hparse, ← hquoted]
  simp only [removeRoutingForwardResponse, Option.bind_eq_bind, Option.bind_eq_some_iff] at hsent
  obtain ⟨⟨trimmedResponse, clientId⟩, -, hsent⟩ := hsent
  dsimp only at hsent
  split at hsent
  · simp only [Option.some.injEq, Prod.mk.injEq] at hsent
    obtain ⟨rfl, -, rfl⟩ := hsent
    cases contains trimmedResponse (str "\"subscription\"") with
    | true => simp
    | false => simp
  · cases hsent

end Words

/-! ## The law -/

/-- A message is classified by its action exactly where a word in one of its strings tells
whether this is the action. -/
theorem classification_iff {text : GoString} {object : GoMap Json}
    (h : unmarshalMap text = some object) :
    (∀ response channel index,
        removeRoutingForwardResponse response = some (channel, index, text) →
          ((channel = .clientBackendChan ↔ ActionIs object "subscription") ↔
            (ActionIs object "subscription" ↔ MentionsWhole text (str "subscription")))) ∧
      ((isMultipleEvents text = true ↔ ActionIs object "subscribe") ↔
        (ActionIs object "subscribe" ↔
          Mentions text (str "subscribe") ∧ ¬ Mentions text (str "unsubscribe"))) ∧
      ((∀ isMultipleEvent, releasesStream text isMultipleEvent = true →
          ActionIs object "unsubscribe") ↔
        (Mentions text (str "unsubscribe") → ActionIs object "unsubscribe")) ∧
      ((awaitsResponse text = false ↔ ActionIs object "internal-killsubscriptions") ↔
        Tells text object "internal-killsubscriptions") ∧
      (parentRequest text = askedByParent object ↔
        (isNull (valueAt object (str "context")) = false ↔ Mentions text (str "context"))) ∧
      (clientRequest text = askedByClient object ↔ Tells text object "at-request" ∧
        (Mentions text (str "at-request") ∨ Tells text object "at-inquiry")) ∧
      (ecfRequest text = askedByEcf object ↔ Tells text object "consent-reply" ∧
        (Mentions text (str "consent-reply") ∨ Tells text object "consent-cancel")) := by
  refine ⟨?_, ?_, ?_, ?_, parentRequest_iff h, clientRequest_iff h, ecfRequest_iff h⟩
  · intro response channel index hsent
    rw [notifies_iff h hsent]
    exact iff_comm
  · rw [isMultipleEvents_iff h]
    exact iff_comm
  · simp only [releasesStream_iff h]
    constructor
    · exact fun hall hmention => hall true ⟨rfl, hmention⟩
    · rintro hmention isMultipleEvent ⟨-, hword⟩
      exact hmention hword
  · rw [awaitsResponse_iff h]
    exact iff_comm

theorem classification_iff_subscribe :
    ((isMultipleEvents (str "\x7b\"action\":\"subscribe\"\x7d") = true ↔
        ActionIs [(str "action", .str (str "subscribe"))] "subscribe") ↔
      (ActionIs [(str "action", .str (str "subscribe"))] "subscribe" ↔
        Mentions (str "\x7b\"action\":\"subscribe\"\x7d") (str "subscribe") ∧
          ¬ Mentions (str "\x7b\"action\":\"subscribe\"\x7d") (str "unsubscribe"))) :=
  (@classification_iff (str "\x7b\"action\":\"subscribe\"\x7d")
    [(str "action", .str (str "subscribe"))] rfl).2.1

/-- A response to a get request, for a signal with the value subscription. -/
def getResponse : GoString := str (
  "\x7b\"action\":\"get\",\"requestId\":\"8\",\"ts\":\"2024-02-29T12:00:00Z\", " ++
  "\"data\":\x7b\"path\":\"Vehicle.Mode\", \"dp\":\x7b\"value\":\"subscription\", " ++
  "\"ts\":\"2024-02-29T12:00:00Z\"\x7d\x7d\x7d")

/-- The response as the core sends it for the websocket session 3. -/
def routedResponse : GoString := str "\x7b\"RouterId\":\"1?3\"," ++ getResponse.drop 1

/-- A get request whose request id is the name of an internal action. -/
def namedRequest : GoString := str (
  "\x7b\"RouterId\":\"1?3\",\"action\":\"get\",\"path\":\"Vehicle.Mode\"," ++
  "\"requestId\":\"internal-killsubscriptions\"\x7d")

theorem exists_action {text word : GoString}
    (h : (unmarshalMap text).map (fun object => asString (valueAt object (str "action"))) =
      some (some word)) :
    ∃ object, unmarshalMap text = some object ∧
      asString (valueAt object (str "action")) = some word :=
  Option.map_eq_some_iff.mp h

/-- The response goes to the channel for notifications, and the data server does not wait for
the response to the request. -/
theorem classified_by_values :
    (∃ object, removeRoutingForwardResponse routedResponse =
        some (.clientBackendChan, ⟨3, by decide⟩, getResponse) ∧
      unmarshalMap getResponse = some object ∧ ¬ ActionIs object "subscription") ∧
    ∃ object, unmarshalMap namedRequest = some object ∧ awaitsResponse namedRequest = false ∧
      ¬ ActionIs object "internal-killsubscriptions" := by
  have hget : ∀ {object : GoMap Json} {word : String}, str word ≠ str "get" →
      asString (valueAt object (str "action")) = some (str "get") → ¬ ActionIs object word := by
    intro object word hne haction hword
    exact hne (Option.some.inj (hword.symm.trans haction))
  obtain ⟨response, hresponse, haction⟩ := @exists_action getResponse (str "get")
    (by decide +kernel)
  obtain ⟨request, hrequest, haction'⟩ := @exists_action namedRequest (str "get")
    (by decide)
  exact ⟨⟨response, by decide +kernel, hresponse, hget (by decide +kernel) haction⟩, request, hrequest,
    by decide, hget (by decide) haction'⟩

end VissServer.Managers
