import VissServer.Utils.ResponseTexts
import VissServer.Utils.WsMessages

/-!
The JSON texts that are printed from the protobuf messages of the websocket protocol: which
messages can be printed, and what their texts mean.
-/
namespace VissServer.Utils

open Go

section Fields

variable (c : Compression) (pathList : List GoString)

def GetResponse.data (m : GetResponse) : Option (List DataPackage) :=
  if m.status = .success then some (((m.successResponse.getD {}).dataPack.getD {}).data) else none

def NotificationMessage.data (m : NotificationMessage) : Option (List DataPackage) :=
  if m.status = .success then some (((m.successResponse.getD {}).dataPack.getD {}).data) else none

/-- The data that the printer goes through. -/
def ProtobufMessage.data (m : ProtobufMessage) : Option (List DataPackage) :=
  match m.method with
  | .get =>
      if (m.get.getD {}).mType = .response then ((m.get.getD {}).response.getD {}).data else none
  | .subscribe =>
      if (m.subscribe.getD {}).mType = .notification then
        ((m.subscribe.getD {}).notification.getD {}).data
      else none
  | _ => none

/-- The members that the text of a message can have, in their order, and those that it should
have: a set response leaves out its time and its identifier. -/
def ProtobufMessage.fields (m : ProtobufMessage) : List (GoString × Field) :=
  match m.method with
  | .get =>
      let g := m.get.getD {}
      (str "action", .text (str "get")) ::
        match g.mType with
        | .request =>
            let q := g.request.getD {}
            [(str "path", .text q.path), (str "filter", .firstFilter q.filter),
              (str "authorization", .optional q.authorization),
              (str "requestId", .optional q.requestId)]
        | .response =>
            let p := g.response.getD {}
            [(str "data", dataField c pathList p.data),
              (str "error", errorField (printedError p.status p.errorResponse)),
              (str "ts", .text (timeOf c p.ts p.tsC)), (str "requestId", .optional p.requestId)]
        | _ => []
  | .set =>
      let g := m.set.getD {}
      (str "action", .text (str "set")) ::
        match g.mType with
        | .request =>
            let q := g.request.getD {}
            [(str "path", .text q.path), (str "value", .unclosed q.value),
              (str "authorization", .optional q.authorization),
              (str "requestId", .optional q.requestId)]
        | .response =>
            let p := g.response.getD {}
            [(str "error", errorField (printedError p.status p.errorResponse)),
              (str "ts", .unprinted (some p.ts)), (str "requestId", .unprinted p.requestId)]
        | _ => []
  | .subscribe =>
      let g := m.subscribe.getD {}
      match g.mType with
      | .request =>
          let q := g.request.getD {}
          [(str "action", .text (str "subscribe")), (str "path", .text q.path),
            (str "filter", .firstFilter q.filter),
            (str "authorization", .optional q.authorization),
            (str "requestId", .nonEmpty q.requestId)]
      | .response =>
          let p := g.response.getD {}
          [(str "action", .text (str "subscribe")),
            (str "error", errorField (printedError p.status p.errorResponse)),
            (str "ts", .text p.ts), (str "subscriptionId", .nonEmpty p.subscriptionId),
            (str "requestId", .nonEmpty p.requestId)]
      | .notification =>
          let n := g.notification.getD {}
          [(str "action", .text (str "subscription")), (str "data", dataField c pathList n.data),
            (str "error", errorField (printedError n.status (g.response.getD {}).errorResponse)),
            (str "ts", .text (timeOf c n.ts n.tsC)),
            (str "subscriptionId", .nonEmpty n.subscriptionId)]
      | .unknown => []
  | .unsubscribe =>
      let g := m.unSubscribe.getD {}
      (str "action", .text (str "unsubscribe")) ::
        match g.mType with
        | .request =>
            let q := g.request.getD {}
            [(str "subscriptionId", .nonEmpty q.subscriptionId),
              (str "requestId", .optional q.requestId)]
        | .response =>
            let p := g.response.getD {}
            [(str "error", errorField (printedError p.status p.errorResponse)),
              (str "subscriptionId", .nonEmpty p.subscriptionId),
              (str "requestId", .optional p.requestId), (str "ts", .text p.ts)]
        | _ => []
  | .unknown => []

def ProtobufMessage.json (reading : Reading) (m : ProtobufMessage) : Json :=
  fieldsJson reading (m.fields c pathList)

/-- The lists of the message that the printer goes through have items. -/
def ProtobufMessage.Listed (m : ProtobufMessage) : Prop :=
  (∀ p ∈ m.fields c pathList, p.2.Listed) ∧ ∀ data ∈ m.data, DataListed c pathList data

/-- No string of the message is left out or printed without its quotes. -/
def ProtobufMessage.Quoted (m : ProtobufMessage) : Prop :=
  ∀ p ∈ m.fields c pathList, p.2.Quoted

/-! ## The parts of a text -/

theorem getJsonFilter_pb_listed {filter : Option FilterExpressions}
    (h : (Field.firstFilter filter).Listed) : getJsonFilter_pb filter =
      some (memberTail [] (str "filter", (Field.firstFilter filter).json .printed)) := by
  cases filter with
  | none => rfl
  | some f =>
    obtain ⟨filterExp⟩ := f
    obtain ⟨hne, hlisted⟩ := h _ rfl
    cases filterExp with
    | nil => exact absurd rfl hne
    | cons e rest =>
      have hlisted : e.Listed := hlisted
      rw [getJsonFilter_pb, List.getElem?_cons_zero, Option.bind_eq_bind, Option.bind_some,
        synthesizeFilter_eq, if_pos hlisted]
      rfl

theorem getJsonFilter_pb_unlisted {filter : Option FilterExpressions}
    (h : ¬ (Field.firstFilter filter).Listed) : getJsonFilter_pb filter = none := by
  cases filter with
  | none => exact absurd (by simp [Field.Listed]) h
  | some f =>
    obtain ⟨filterExp⟩ := f
    cases filterExp with
    | nil => rfl
    | cons e rest =>
      have hunlisted : ¬ e.Listed := fun hlisted => h fun f hf => by
        obtain rfl := Option.mem_some_iff.mp hf
        exact ⟨List.cons_ne_nil e rest, hlisted⟩
      rw [getJsonFilter_pb, List.getElem?_cons_zero, Option.bind_eq_bind, Option.bind_some,
        synthesizeFilter_eq, if_neg hunlisted]
      rfl

theorem getResponseJson_eq (m : GetResponse) : getResponseJson c pathList m =
    (if m.status = .success then
      createJsonData c pathList (((m.successResponse.getD {}).dataPack.getD {}).data)
    else some (errorText m.errorResponse)).bind fun content =>
      some (content ++ tsMember (timeOf c m.ts m.tsC) ++
        getJsonTransactionId [] (m.requestId.getD [])) := by
  unfold getResponseJson
  rw [tsText_eq]
  split <;> rfl

theorem notificationJson_eq (m : SubscribeMessage) : notificationJson c pathList m =
    (if (m.notification.getD {}).status = .success then
      createJsonData c pathList
        ((((m.notification.getD {}).successResponse.getD {}).dataPack.getD {}).data)
    else some (errorText (m.response.getD {}).errorResponse)).bind fun content =>
      some (content ++
        tsMember (timeOf c (m.notification.getD {}).ts (m.notification.getD {}).tsC) ++
        getJsonTransactionId (m.notification.getD {}).subscriptionId []) := by
  unfold notificationJson
  simp only [tsText_eq]
  split <;> rfl

/-! ## Messages -/

/-- The response of a set message says only its time when it succeeds. -/
def ProtobufMessage.BareTime (m : ProtobufMessage) : Prop :=
  m.method = .set ∧ (m.set.getD {}).mType = .response ∧
    ((m.set.getD {}).response.getD {}).status = .success

theorem ProtobufMessage.text_listed {m : ProtobufMessage} (hlisted : m.Listed c pathList)
    (htime : ¬ m.BareTime) :
    populateJsonFromProto c pathList m = some (rawText [] (m.json c pathList .printed)) := by
  obtain ⟨hfields, hdata⟩ := hlisted
  unfold ProtobufMessage.json
  unfold ProtobufMessage.fields at hfields ⊢
  unfold ProtobufMessage.data at hdata
  unfold populateJsonFromProto membersJson
  -- The text of the members, where that of the data, the error and the filter is known.
  cases hmethod : m.method <;> simp only [hmethod] at hfields hdata ⊢
  case get =>
    cases htype : (m.get.getD {}).mType <;> simp only [htype, if_true] at hfields hdata ⊢
    case request =>
      have hfilter := getJsonFilter_pb_listed (hfields _ (.tail _ (.tail _ (.head _))))
      simp only [getRequestJson, hfilter, printed_members, getJsonAuthorization,
        getJsonTransactionId, createJSON_eq, fieldsTable, List.map_cons, List.map_nil,
        List.flatMap_cons, List.flatMap_nil, Option.bind_eq_bind, Option.bind_some,
        List.append_assoc]
      rfl
    case response =>
      have hcontent := contentText_listed c pathList
        ((m.get.getD {}).response.getD {}).errorResponse hdata
      simp only [getResponseJson_eq, hcontent, printed_members, tsMember_eq, getJsonTransactionId,
        createJSON_eq, fieldsTable, List.map_cons, List.map_nil,
        List.flatMap_cons, List.flatMap_nil, Option.bind_eq_bind, Option.bind_some,
        List.append_assoc]
      rfl
    all_goals rfl
  case set =>
    cases htype : (m.set.getD {}).mType <;> simp only [htype] at hfields ⊢
    case request =>
      simp only [setRequestJson, printed_members, getJsonAuthorization, getJsonTransactionId,
        createJSON_eq, fieldsTable, List.map_cons, List.map_nil, List.flatMap_cons,
        List.flatMap_nil, Option.bind_eq_bind, Option.bind_some, List.append_assoc]
      rfl
    case response =>
      have hstatus : ¬ ((m.set.getD {}).response.getD {}).status = .success :=
        fun hsuccess => htime ⟨hmethod, htype, hsuccess⟩
      simp only [setResponseJson, if_neg hstatus, printedError, printed_members, errorText_eq,
        fieldsTable, List.map_cons, List.map_nil, List.flatMap_cons, List.flatMap_nil,
        Option.bind_eq_bind, Option.bind_some, List.append_assoc]
      rfl
    all_goals rfl
  case subscribe =>
    cases htype : (m.subscribe.getD {}).mType <;> simp only [htype, if_true] at hfields hdata ⊢
    case request =>
      have hfilter := getJsonFilter_pb_listed
        (hfields _ (.tail _ (.tail _ (.head _))))
      simp only [subscribeRequestJson, hfilter, printed_members, getJsonAuthorization,
        getJsonTransactionId, createJSON_eq, fieldsTable, List.map_cons, List.map_nil,
        List.flatMap_cons, List.flatMap_nil, Option.bind_eq_bind, Option.bind_some,
        List.append_assoc]
      rfl
    case response =>
      simp only [subscribeResponseJson, errorMember_eq, printed_members, tsMember_eq,
        getJsonTransactionId, createJSON_eq, fieldsTable, List.map_cons, List.map_nil,
        List.flatMap_cons, List.flatMap_nil, Option.bind_eq_bind, Option.bind_some,
        List.append_assoc]
      rfl
    case notification =>
      have hcontent := contentText_listed c pathList
        ((m.subscribe.getD {}).response.getD {}).errorResponse hdata
      simp only [notificationJson_eq, hcontent, printed_members, tsMember_eq, getJsonTransactionId,
        createJSON_eq, fieldsTable, List.map_cons, List.map_nil,
        List.flatMap_cons, List.flatMap_nil, Option.bind_eq_bind, Option.bind_some,
        List.append_assoc]
      rfl
    case unknown => rfl
  case unsubscribe =>
    cases htype : (m.unSubscribe.getD {}).mType <;> simp only [htype] at hfields ⊢
    case request =>
      simp only [unSubscribeRequestJson, printed_members, getJsonTransactionId, createJSON_eq,
        fieldsTable, List.map_cons, List.map_nil, List.flatMap_cons, List.flatMap_nil,
        Option.bind_eq_bind, Option.bind_some, List.append_assoc]
      rfl
    case response =>
      simp only [unSubscribeResponseJson, errorMember_eq, printed_members, tsMember_eq,
        getJsonTransactionId, createJSON_eq, fieldsTable, List.map_cons, List.map_nil,
        List.flatMap_cons, List.flatMap_nil, Option.bind_eq_bind, Option.bind_some,
        List.append_assoc]
      rfl
    all_goals rfl
  case unknown => rfl

theorem ProtobufMessage.text_unlisted {m : ProtobufMessage} (h : ¬ m.Listed c pathList) :
    populateJsonFromProto c pathList m = none := by
  unfold ProtobufMessage.Listed ProtobufMessage.fields ProtobufMessage.data at h
  unfold populateJsonFromProto membersJson
  cases hmethod : m.method <;> simp only [hmethod] at h ⊢
  case get =>
    cases htype : (m.get.getD {}).mType <;> simp only [htype, if_true] at h ⊢
    case request =>
      have hfilter : getJsonFilter_pb ((m.get.getD {}).request.getD {}).filter = none :=
        getJsonFilter_pb_unlisted fun hlisted => h (by simpa [Field.Listed] using hlisted)
      simp only [getRequestJson, hfilter, Option.bind_eq_bind, Option.bind_none]
    case response =>
      have hcontent := contentText_unlisted c pathList
        ((m.get.getD {}).response.getD {}).errorResponse
        fun hlisted => h ⟨by simp [Field.Listed, dataField, errorField], hlisted⟩
      simp only [getResponseJson_eq, hcontent, Option.bind_eq_bind, Option.bind_none]
    all_goals exact absurd (by simp [Field.Listed]) h
  case set =>
    cases htype : (m.set.getD {}).mType <;> simp only [htype] at h <;>
      exact absurd (by simp [Field.Listed, errorField]) h
  case subscribe =>
    cases htype : (m.subscribe.getD {}).mType <;> simp only [htype, if_true] at h ⊢
    case request =>
      have hfilter : getJsonFilter_pb ((m.subscribe.getD {}).request.getD {}).filter = none :=
        getJsonFilter_pb_unlisted fun hlisted => h (by simpa [Field.Listed] using hlisted)
      simp only [subscribeRequestJson, hfilter, Option.bind_eq_bind, Option.bind_none]
    case notification =>
      have hcontent := contentText_unlisted c pathList
        ((m.subscribe.getD {}).response.getD {}).errorResponse
        fun hlisted => h ⟨by simp [Field.Listed, dataField, errorField], hlisted⟩
      simp only [notificationJson_eq, hcontent, Option.bind_eq_bind, Option.bind_none]
    all_goals exact absurd (by simp [Field.Listed, errorField]) h
  case unsubscribe =>
    cases htype : (m.unSubscribe.getD {}).mType <;> simp only [htype] at h <;>
      exact absurd (by simp [Field.Listed, errorField]) h
  case unknown => exact absurd (by simp) h

theorem ProtobufMessage.names (m : ProtobufMessage) :
    Named ((m.fields c pathList).map Prod.fst) := by
  unfold ProtobufMessage.fields
  cases m.method <;> dsimp only
  case get => cases (m.get.getD {}).mType <;> exact of_decide_eq_true rfl
  case set => cases (m.set.getD {}).mType <;> exact of_decide_eq_true rfl
  case subscribe => cases (m.subscribe.getD {}).mType <;> exact of_decide_eq_true rfl
  case unsubscribe => cases (m.unSubscribe.getD {}).mType <;> exact of_decide_eq_true rfl
  case unknown => exact of_decide_eq_true rfl

theorem ProtobufMessage.textual (m : ProtobufMessage) :
    Textual maxNestingDepth (m.json c pathList .meant) :=
  ((fieldsJson_textual (m.names c pathList)).mono
    (show 5 ≤ maxNestingDepth by unfold maxNestingDepth; omega)).1

theorem ProtobufMessage.bareTime_fields {m : ProtobufMessage} (h : m.BareTime) :
    m.fields c pathList = [(str "action", .text (str "set")), (str "error", .value none),
      (str "ts", .unprinted (some ((m.set.getD {}).response.getD {}).ts)),
      (str "requestId", .unprinted ((m.set.getD {}).response.getD {}).requestId)] := by
  obtain ⟨hmethod, htype, hstatus⟩ := h
  unfold ProtobufMessage.fields
  simp only [hmethod, htype, printedError, if_pos hstatus]
  rfl

theorem ProtobufMessage.bareTime_text {m : ProtobufMessage} (h : m.BareTime) :
    populateJsonFromProto c pathList m = some (str "\x7b" ++ (actionMember (str "set") ++
      ((m.set.getD {}).response.getD {}).ts) ++ str "\x7d") := by
  obtain ⟨hmethod, htype, hstatus⟩ := h
  unfold populateJsonFromProto membersJson
  simp only [hmethod, htype, setResponseJson, if_pos hstatus, Option.bind_eq_bind,
    Option.bind_some]

theorem ProtobufMessage.bareTime_unquoted {m : ProtobufMessage} (h : m.BareTime) :
    ¬ m.Quoted c pathList := by
  intro hquoted
  rw [ProtobufMessage.Quoted, m.bareTime_fields c pathList h] at hquoted
  exact Option.some_ne_none _ (hquoted _ (.tail _ (.tail _ (.head _))))

theorem ProtobufMessage.bareTime_listed {m : ProtobufMessage} (h : m.BareTime) :
    m.Listed c pathList := by
  constructor
  · simp [m.bareTime_fields c pathList h, Field.Listed]
  · simp [ProtobufMessage.data, h.1]

/-- A time without a name and quotes has fewer marks than the members that are meant. -/
theorem ProtobufMessage.bareTime_short {m : ProtobufMessage} (h : m.BareTime) {s : GoString}
    (hprinted : populateJsonFromProto c pathList m = some s) :
    marks s < cost (m.json c pathList .meant) := by
  rw [m.bareTime_text c pathList h, Option.some.injEq] at hprinted
  subst hprinted
  have htext : marks (actionMember (str "set")) = 4 ∧ marks (str "\x7b") = 0 ∧
      marks (str "\x7d") = 0 := by decide
  have haction : entryCost (str "action", some (.str (str "set"))) = 4 := by decide
  have hts (ts : GoString) : entryCost (str "ts", some (.str ts)) = marks ts + 4 := by
    have hname : marks (str "ts") = 0 := by decide
    rw [entryCost, hname, cost]
    omega
  rw [ProtobufMessage.json, m.bareTime_fields c pathList h, fieldsJson, cost_present]
  simp only [marks_append, htext, fieldsTable, List.map_cons, List.sum_cons, Field.json, haction,
    Option.map_some, hts]
  omega

/-- Where a value keeps the strings of the message, the text that is printed means this value if
and only if the lists have items, no string is left out, all strings are literals, and the value
is the one that is meant. -/
theorem ProtobufMessage.text_keeps_iff (m : ProtobufMessage) {v : Json}
    (hkeeps : m.Listed c pathList → Keeps maxNestingDepth (m.json c pathList .meant) v) :
    (∃ s, populateJsonFromProto c pathList m = some s ∧
        (parseText s).map canon = some (canon v)) ↔
      m.Listed c pathList ∧ m.Quoted c pathList ∧
        Literal maxNestingDepth (m.json c pathList .meant) ∧
        canon v = canon (m.json c pathList .meant) := by
  by_cases htime : m.BareTime
  · refine iff_of_false ?_ fun h => m.bareTime_unquoted c pathList htime h.2.1
    rintro ⟨s, hprinted, hread⟩
    have hshort := m.bareTime_short c pathList htime hprinted
    exact Keeps.short (hkeeps (m.bareTime_listed c pathList htime)) (m.textual c pathList) hshort
      hread
  by_cases hlisted : m.Listed c pathList
  · have hprinted := m.text_listed c pathList hlisted htime
    have hread := fieldsJson_keeps_iff (m.names c pathList) hlisted.1 (hkeeps hlisted)
    simp only [hprinted, Option.some.injEq, exists_eq_left', hlisted, true_and]
    exact hread
  · simp [m.text_unlisted c pathList hlisted, hlisted]

theorem ProtobufMessage.text_isSome (m : ProtobufMessage) :
    (populateJsonFromProto c pathList m).isSome ↔ m.Listed c pathList := by
  by_cases htime : m.BareTime
  · simp [m.bareTime_text c pathList htime, m.bareTime_listed c pathList htime]
  by_cases hlisted : m.Listed c pathList
  · simp [m.text_listed c pathList hlisted htime, hlisted]
  · simp [m.text_unlisted c pathList hlisted, hlisted]

end Fields

end VissServer.Utils
