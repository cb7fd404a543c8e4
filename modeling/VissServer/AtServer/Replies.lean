import VissServer.AtServer.Answering
import VissServer.Go.JsonObjects
import VissServer.Go.JsonSlots
import VissServer.Go.Numerals
import VissServer.Library.Traversals

/-!
What the access token server puts into its replies to clients, to the core and to the ECF and
into the consent-asks, and for which inputs these texts mean it. Texts are written by hand,
with strings of requests, tokens and policies between quotes as they are.
-/
namespace VissServer.AtServer

open Go Utils

/-- What a reply or a consent-ask is put together from. -/
inductive Reply
  /-- A text without parts. -/
  | fixed (text : GoString)
  | object (members : List SlotMember)
  | noAccess (paths : List GoString)
  /-- The reply to the at-inquiry of a session without a consent. -/
  | notSet (gatingId : ℤ)

namespace Reply

/-- The text of a reply; none is the panic for an empty list of paths. -/
def text : Reply → MayPanic GoString
  | fixed text => some text
  | object members => some (objectText members)
  | noAccess [] => none
  | noAccess paths =>
      some (str "\x7b\"no_access\":" ++ rawText [32] (listValue (paths.map Json.str)) ++ str "\x7d")
  | notSet gatingId => some (str "\x7b\"action\": \"at-inquiry\", \"sessionId\":" ++
      itoa gatingId ++ str "\", \"consent\":\"NOT_SET\"\x7d")

/-- A text is a JSON object with the strings that were put into it. -/
def Means : Reply → GoString → Prop
  | fixed _, text => ∃ members, parseText text = some (.obj members) ∧
      ∀ p ∈ members, ∃ s, p.2 = .str s
  | object members, text => parseText text = some (.obj (members.map SlotMember.member))
  | noAccess paths, text =>
      parseText text = some (.obj [(str "no_access", listValue (paths.map Json.str))])
  | notSet gatingId, text => parseText text = some (.obj [(str "action", .str (str "at-inquiry")),
      (str "sessionId", .str (itoa gatingId)), (str "consent", .str (str "NOT_SET"))])

/-- There is a text, and it means the reply. -/
def Told (r : Reply) : Prop := ∃ text, r.text = some text ∧ r.Means text

end Reply

def textMember (name s : GoString) : SlotMember := { name, slot := .string s }

/-- A string behind a colon and a space. -/
def spacedMember (name s : GoString) : SlotMember := { name, space := [32], slot := .string s }

/-- The signals that the first purpose of a name lists. -/
def signalAccess (cfg : Config) (purpose : GoString) : Json :=
  match (cfg.pList.find? fun p => p.short = purpose).bind PurposeElement.access with
  | none => .null
  | some access => .arr (access.map fun a =>
      .obj [(str "Path", .str a.path), (str "Permission", .str a.permission)])

def consentAskMembers (cfg : Config) (payload : AtGenPayload) (gatingId : ℤ) : List SlotMember :=
  [spacedMember (str "action") (str "consent-ask"),
    spacedMember (str "user-roles") (claim payload.agt.payloadClaims (str "clx")),
    spacedMember (str "purpose") payload.purpose,
    { name := str "signal_access"
      slot := .value (getSignalAccess cfg payload.purpose)
        (sanitize (signalAccess cfg payload.purpose)) (signalAccess cfg payload.purpose) },
    spacedMember (str "messageId") (itoa gatingId)]

def sessionMembers (gatingId : ℤ) : List SlotMember :=
  [spacedMember (str "action") (str "at-request"), textMember (str "sessionId") (itoa gatingId),
    textMember (str "consent") (str "NOT_SET")]

def tokenMembers (atoken : GoString) : List SlotMember :=
  [spacedMember (str "action") (str "at-request"), textMember (str "aToken") atoken]

def consentedMembers (atoken consent : GoString) : List SlotMember :=
  [spacedMember (str "action") (str "at-inquiry"), textMember (str "aToken") atoken,
    textMember (str "consent") consent]

def validationMembers (res : ℤ) : List SlotMember := [textMember (str "validation") (itoa res)]

def validMembers (gatingId tokenHandle : GoString) : List SlotMember :=
  [textMember (str "validation") (str "0"), textMember (str "gatingId") gatingId] ++
    if tokenHandle ≠ [] then [textMember (str "handle") tokenHandle] else []

/-! ## The replies of a step -/

/-- The consent-ask and the reply of grantRequest. -/
def grantReplies (cfg : Config) (m : Moment) (s : State) (payload : AtGenPayload) :
    MayPanic (List Reply) :=
  let gatingId := newGatingId s
  if checkifConsent cfg payload.purpose then
    if s.ecfAvailable then do
      let _ ← writeToPendingList m.now s gatingId payload
      some [.object (consentAskMembers cfg payload gatingId), .object (sessionMembers gatingId)]
    else some [.fixed (str
      "\x7b\"action\": \"at-request\", \"error\":\"consent framework not accessible\"\x7d")]
  else do
    let (_, atoken) ← issueAt cfg m s gatingId payload
    some [.object (tokenMembers atoken)]

def requestReplies (cfg : Config) (m : Moment) (s : State) (request : GoString) :
    MayPanic (List Reply) := do
  match ← decodeRequest cfg request with
  | .inl errResponse => some [.fixed errResponse]
  | .inr payload =>
      let (errResponse, jtiCache) ← validateRequest cfg m s.jtiCache payload
      if errResponse = [] then grantReplies cfg m { s with jtiCache } payload
      else some [.fixed errResponse]

def slotReplies (cfg : Config) (m : Moment) (s : State) (gatingId : ℤ) (i : Slot) :
    MayPanic (List Reply) :=
  let e := s.pendingList i
  if e.consent = str "NOT_SET" then some [.notSet gatingId]
  else if e.consent = str "NO" then
    some [.fixed (str "\x7b\"action\": \"at-inquiry\", \"consent\":\"NO\"\x7d")]
  else do
    let (_, atoken) ← issueAt cfg m (removeFromPendingList s i) gatingId e.atGenData
    some [.object (consentedMembers atoken e.consent)]

def inquiryReplies (cfg : Config) (m : Moment) (s : State) (input : GoString) :
    MayPanic (List Reply) := do
  let gatingId ← extractGatingId input
  match s.pendingSlot gatingId with
  | some i => slotReplies cfg m s gatingId i
  | none => some [.fixed (str
      "\x7b\"action\": \"at-inquiry\", \"error\":\"404 - Not-found\"\x7d")]

def clientReplies (cfg : Config) (m : Moment) (s : State) (input : GoString) :
    MayPanic (List Reply) :=
  if contains input (str "at-request") then requestReplies cfg m s input
  else if contains input (str "at-inquiry") then inquiryReplies cfg m s input
  else some [.fixed (str "\x7b\"action\":\"unknown\",\"status\":\"401-Bad request\"\x7d")]

/-- The paths of the first scope with a matching context. -/
def noAccessReply (context : GoString) : List ScopeElement → MayPanic Reply
  | [] => some (.noAccess [[]])
  | e :: rest => do
      if ← checkAuthorization e.context context then some (.noAccess e.noAccess)
      else noAccessReply context rest

def validationReply (cfg : Config) (m : Moment) (s : State) (payload : AtValidatePayload) :
    MayPanic Reply := do
  let token := getCompleteToken s payload.token
  let res ← validateToken cfg m.now payload token
  if res ≠ 0 then some (.object (validationMembers res))
  else
    let (gatingId, tokenHandle) := getGatingIdAndTokenHandle s token
    some (.object (validMembers gatingId tokenHandle))

def parentReply (cfg : Config) (m : Moment) (s : State) (input : GoString) : MayPanic Reply :=
  if contains input (str "context") then
    match noScopeContext input with
    | none => some (.fixed (str "\x7b\"no_access\":\"\"\x7d"))
    | some context => noAccessReply context cfg.sList
  else
    match decodeValidate m input with
    | none => some (.fixed (str "\x7b\"validation\":\"1\"\x7d"))
    | some payload => validationReply cfg m s payload

/-- What a step sends; the replies to the ECF have no parts. -/
def replies (cfg : Config) (m : Moment) (s : State) : Event → MayPanic (List Reply)
  | .client request => clientReplies cfg m s request
  | .parent request => (parentReply cfg m s request).map fun r => [r]
  | .ecf message => (ecfStep s message).map fun r => (ecfMessages r.2).map Reply.fixed
  | .expiryTick => some []
  | .deleteJti _ => some []

/-- The text that an effect sends to a client, to the core or to the ECF. -/
def Effect.reply : Effect → Option GoString
  | .client response => some response
  | .parent response => some response
  | .ecf message => some message
  | .cancel _ => none
  | .issue _ _ => none

def sentReplies (effects : List Effect) : List GoString := effects.filterMap Effect.reply

/-- Where a step gets to its replies, it sends them, and each text means its reply. -/
def RepliesJson (cfg : Config) (m : Moment) (s : State) (e : Event) : Prop :=
  ∀ rs, replies cfg m s e = some rs → ∃ r, step cfg m s e = some r ∧
    List.Forall₂ Reply.Means rs (sentReplies r.2)

/-! ## The texts of a step -/

section Texts

variable {cfg : Config} {m : Moment} {s : State} {payload : AtGenPayload} {g : ℤ}

theorem consentAsk_text :
    objectText (consentAskMembers cfg payload g) = consentAsk cfg payload g := by
  simp only [consentAsk, List.append_assoc]
  simp [objectText, consentAskMembers, slotsText, SlotMember.text, spacedMember, Slot.text]
  rfl

theorem session_text : objectText (sessionMembers g) =
    str "\x7b\"action\": \"at-request\", \"sessionId\":\"" ++ itoa g ++
      str "\", \"consent\":\"NOT_SET\"\x7d" := by
  simp only [List.append_assoc]
  simp [objectText, sessionMembers, slotsText, SlotMember.text, spacedMember, textMember, Slot.text]
  rfl

theorem token_text (atoken : GoString) : objectText (tokenMembers atoken) =
    str "\x7b\"action\": \"at-request\", \"aToken\":\"" ++ atoken ++ str "\"\x7d" := by
  simp only [List.append_assoc]
  simp [objectText, tokenMembers, slotsText, SlotMember.text, spacedMember, textMember, Slot.text]
  rfl

theorem consented_text (atoken consent : GoString) : objectText (consentedMembers atoken consent) =
    str "\x7b\"action\": \"at-inquiry\", \"aToken\":\"" ++ atoken ++
      str "\", \"consent\":\"" ++ consent ++ str "\"\x7d" := by
  simp only [List.append_assoc]
  simp [objectText, consentedMembers, slotsText, SlotMember.text, spacedMember, textMember,
    Slot.text]
  rfl

theorem validation_text (res : ℤ) : objectText (validationMembers res) =
    str "\x7b\"validation\":\"" ++ itoa res ++ str "\"\x7d" := by
  simp only [List.append_assoc]
  simp [objectText, validationMembers, slotsText, SlotMember.text, textMember, Slot.text]
  rfl

theorem valid_text (gatingId tokenHandle : GoString) :
    objectText (validMembers gatingId tokenHandle) =
      if tokenHandle ≠ [] then str "\x7b\"validation\":\"0\", \"gatingId\":\"" ++ gatingId ++
        str "\", \"handle\":\"" ++ tokenHandle ++ str "\"\x7d"
      else str "\x7b\"validation\":\"0\", \"gatingId\":\"" ++ gatingId ++ str "\"\x7d" := by
  simp only [List.append_assoc]
  split
  · next hne =>
    simp [objectText, validMembers, hne, slotsText, SlotMember.text, textMember, Slot.text]
    rfl
  · next heq =>
    simp [objectText, validMembers, heq, slotsText, SlotMember.text, textMember, Slot.text]
    rfl

theorem noAccess_items {paths : List GoString} (hne : paths ≠ []) :
    (paths.flatMap fun path => str "\"" ++ path ++ str "\", ") =
      rawItems [32] (paths.map Json.str) ++ [44, 32] := by
  have hitem : ∀ path, str "\"" ++ path ++ str "\", " = rawText [32] (.str path) ++ [44, 32] := by
    intro path
    simp [rawText]
    rfl
  rw [← rawItems_trailing [32] (by simpa using hne), List.flatMap_map]
  exact congrArg (List.flatMap · paths) (funext hitem)

/-- The text of a list with the comma behind its last item cut off. -/
theorem noAccess_cut {paths : List GoString} (hne : paths ≠ []) {noScope : GoString}
    (h : noScope = str "[" ++ paths.flatMap fun path => str "\"" ++ path ++ str "\", ") :
    slice noScope 0 (noScope.length - 2) = some (91 :: rawItems [32] (paths.map Json.str)) := by
  rw [noAccess_items hne] at h
  exact slice_trailing _ h

theorem synthesizeNoScope_text (e : ScopeElement) : (synthesizeNoScope e).map
    (fun res => str "\x7b\"no_access\":" ++ res ++ str "\x7d") =
      (Reply.noAccess e.noAccess).text := by
  unfold synthesizeNoScope
  match e.noAccess with
  | [] => rfl
  | [one] => rfl
  | path :: path' :: paths =>
    have hcut := noAccess_cut (List.cons_ne_nil path (path' :: paths)) rfl
    simp only [hcut, Option.bind_eq_bind, Option.bind_some]
    rfl

theorem noAccessScope_text (context : GoString) (sList : List ScopeElement) :
    (noAccessScope context sList).map
      (fun res => str "\x7b\"no_access\":" ++ res ++ str "\x7d") =
        (noAccessReply context sList).bind Reply.text := by
  induction sList with
  | nil => rfl
  | cons e sList ih =>
    rw [noAccessScope, noAccessReply]
    cases checkAuthorization e.context context with
    | none => rfl
    | some valid =>
      cases valid with
      | true => exact synthesizeNoScope_text e
      | false => exact ih

/-- The replies that a handler sends are the texts of what it puts together. -/
def Sends (outcome : Outcome) (rs : MayPanic (List Reply)) : Prop :=
  outcome.map (fun r => sentReplies r.2) = rs.bind fun rs => rs.mapM Reply.text

theorem sends_bind {α : Type} {x : MayPanic α} {f : α → Outcome}
    {g : α → MayPanic (List Reply)} (h : ∀ a, Sends (f a) (g a)) : Sends (x.bind f) (x.bind g) := by
  cases x with
  | none => rfl
  | some a => exact h a

theorem grantRequest_sends :
    Sends (grantRequest cfg m s payload) (grantReplies cfg m s payload) := by
  unfold grantRequest grantReplies
  dsimp only
  split
  · split
    · apply sends_bind
      intro s'
      rw [← consentAsk_text, ← session_text]
      rfl
    · rfl
  · apply sends_bind
    intro r
    rw [← token_text]
    rfl

theorem accessTokenResponse_sends {request : GoString} :
    Sends (accessTokenResponse cfg m s request) (requestReplies cfg m s request) := by
  apply sends_bind
  intro r
  cases r with
  | inl errResponse => rfl
  | inr payload =>
    apply sends_bind
    intro r
    dsimp only
    split
    · exact grantRequest_sends
    · rfl

theorem consentInquiryResponse_sends {input : GoString} :
    Sends (consentInquiryResponse cfg m s input) (inquiryReplies cfg m s input) := by
  apply sends_bind
  intro g
  cases s.pendingSlot g with
  | none => rfl
  | some i =>
    change Sends (inquirySlot cfg m s g i) (slotReplies cfg m s g i)
    unfold inquirySlot slotReplies
    dsimp only
    split
    · rfl
    · split
      · rfl
      · apply sends_bind
        intro r
        rw [← consented_text]
        rfl

theorem generateClientResponse_sends {input : GoString} :
    Sends (generateClientResponse cfg m s input) (clientReplies cfg m s input) := by
  unfold generateClientResponse clientReplies
  split
  · exact accessTokenResponse_sends
  · split
    · exact consentInquiryResponse_sends
    · rfl

theorem validationReply_text {payload : AtValidatePayload} {input : GoString}
    (hpayload : decodeValidate m input = some payload) :
    tokenValidationResponse cfg m s input = (validationReply cfg m s payload).bind Reply.text := by
  unfold tokenValidationResponse
  dsimp only [validationReply]
  rw [hpayload]
  dsimp only
  cases validateToken cfg m.now payload (getCompleteToken s payload.token) with
  | none => rfl
  | some res =>
    rw [Option.bind_eq_bind, Option.bind_eq_bind, Option.bind_some, Option.bind_some]
    by_cases hres : res ≠ 0
    · rw [if_pos hres, if_pos hres, Option.bind_some, Reply.text, validation_text]
    · rw [if_neg hres, if_neg hres, Option.bind_some, Reply.text, valid_text]
      split <;> rfl

theorem generateParentResponse_text {input : GoString} :
    generateParentResponse cfg m s input = (parentReply cfg m s input).bind Reply.text := by
  unfold generateParentResponse parentReply
  split
  · unfold noScopeResponse
    cases noScopeContext input with
    | none => rfl
    | some context =>
      rw [← noAccessScope_text]
      exact Option.map_eq_bind.symm
  · cases hpayload : decodeValidate m input with
    | none =>
      rw [tokenValidationResponse, hpayload]
      rfl
    | some payload => exact validationReply_text hpayload

/-- The effects of a message of the ECF are texts for it and gating ids for the core. -/
theorem ecfStep_sent {message : GoString} {r : State × List Effect}
    (h : ecfStep s message = some r) : sentReplies r.2 = ecfMessages r.2 := by
  unfold ecfStep generateEcfResponse at h
  split at h
  · obtain rfl := Option.some.inj h
    rfl
  · split at h
    · obtain rfl := Option.some.inj h
      rfl
    · split at h
      · obtain ⟨r', -, rfl⟩ := Option.map_eq_some_iff.mp h
        rfl
      · split at h
        · obtain ⟨⟨s', cancels, response⟩, hr, rfl⟩ := Option.map_eq_some_iff.mp h
          obtain rfl | ⟨id, rfl⟩ := consentCancelResponse_effects hr <;> rfl
        · obtain rfl := Option.some.inj h
          rfl

/-- A step sends the texts of its replies, or panics before it has one. -/
theorem step_sends (e : Event) : Sends (step cfg m s e) (replies cfg m s e) := by
  cases e with
  | client request => exact generateClientResponse_sends
  | parent request =>
    unfold Sends
    simp only [step, replies, generateParentResponse_text]
    cases parentReply cfg m s request with
    | none => rfl
    | some r =>
      simp only [Option.bind_some, Option.map_some, List.mapM_cons, List.mapM_nil]
      cases r.text <;> rfl
  | ecf message =>
    unfold Sends
    simp only [step, replies]
    cases hstep : ecfStep s message with
    | none => rfl
    | some r =>
      have htexts : ∀ texts : List GoString,
          (texts.map Reply.fixed).mapM Reply.text = some texts := fun _ =>
        Traversals.mapM_map_self fun _ => rfl
      rw [Option.map_some, Option.map_some, Option.bind_some, htexts, ecfStep_sent hstep]
  | expiryTick =>
    unfold Sends
    simp only [step, replies, expiryStep, Option.map_some, Option.bind_some, List.mapM_nil]
    cases (purgeLists m.now s).2 <;> rfl
  | deleteJti jti => rfl

theorem forall₂_told {rs : List Reply} :
    (∃ texts, rs.mapM Reply.text = some texts ∧ List.Forall₂ Reply.Means rs texts) ↔
      ∀ r ∈ rs, r.Told := by
  induction rs with
  | nil => simp
  | cons r rs ih =>
    rw [List.forall_mem_cons, ← ih]
    simp only [List.mapM_cons, Option.bind_eq_bind, Option.bind_eq_some_iff, Option.pure_def,
      Option.some.injEq]
    constructor
    · rintro ⟨texts, ⟨text, htext, rest, hrest, rfl⟩, hmeans⟩
      obtain ⟨hhead, htail⟩ := List.forall₂_cons.mp hmeans
      exact ⟨⟨text, htext, hhead⟩, rest, hrest, htail⟩
    · rintro ⟨⟨text, htext, hhead⟩, rest, hrest, htail⟩
      exact ⟨text :: rest, ⟨text, htext, rest, hrest, rfl⟩, .cons hhead htail⟩

/-- The replies of a step are JSON where each text means its reply. -/
theorem repliesJson_told {e : Event} :
    RepliesJson cfg m s e ↔ ∀ rs, replies cfg m s e = some rs → ∀ r ∈ rs, r.Told := by
  refine forall₂_congr fun rs hrs => ?_
  have hsends := @step_sends cfg m s e
  rw [Sends, hrs, Option.bind_some] at hsends
  rw [← forall₂_told, ← hsends]
  constructor
  · rintro ⟨r, hstep, hmeans⟩
    exact ⟨_, by rw [hstep]; rfl, hmeans⟩
  · rintro ⟨texts, htexts, hmeans⟩
    obtain ⟨r, hstep, rfl⟩ := Option.map_eq_some_iff.mp htexts
    exact ⟨r, hstep, hmeans⟩

end Texts

end VissServer.AtServer
