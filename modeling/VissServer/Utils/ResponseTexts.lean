import VissServer.Utils.GrpcMessages
import VissServer.Utils.GrpcTexts

/-!
The JSON texts of the messages of a gRPC server, as a client prints them from the protobuf
messages: which of them can be printed, and what their texts mean.
-/
namespace VissServer.Utils

open Go

/-! ## Values -/

def errorObject (number reason message : GoString) : Json :=
  .obj [(str "number", .str number), (str "reason", .str reason), (str "message", .str message)]

def pointObject (value ts : GoString) : Json :=
  .obj [(str "value", .str value), (str "ts", .str ts)]

def packageObject (path : GoString) (dp : Json) : Json :=
  .obj [(str "path", .str path), (str "dp", dp)]

theorem textual_errorObject (number reason message : GoString) :
    Textual 4 (errorObject number reason message) := by
  have hnodup : [str "number", str "reason", str "message"].Nodup := by decide
  refine ⟨hnodup, ?_⟩
  simp only [List.forall_mem_cons, List.not_mem_nil, false_imp_iff, implies_true, and_true]
  exact ⟨⟨isLiteral_of_all (by decide), .inr trivial⟩, ⟨isLiteral_of_all (by decide), .inr trivial⟩,
    isLiteral_of_all (by decide), .inr trivial⟩

theorem textual_pointObject (value ts : GoString) : Textual 1 (pointObject value ts) := by
  have hnodup : [str "value", str "ts"].Nodup := by decide
  refine ⟨hnodup, ?_⟩
  simp only [List.forall_mem_cons, List.not_mem_nil, false_imp_iff, implies_true, and_true]
  exact ⟨⟨isLiteral_of_all (by decide), .inr trivial⟩, isLiteral_of_all (by decide), .inr trivial⟩

theorem textual_packageObject (path : GoString) {dp : Json} (h : Textual 2 dp) :
    Textual 3 (packageObject path dp) := by
  have hnodup : [str "path", str "dp"].Nodup := by decide
  refine ⟨hnodup, ?_⟩
  simp only [List.forall_mem_cons, List.not_mem_nil, false_imp_iff, implies_true, and_true]
  exact ⟨⟨isLiteral_of_all (by decide), .inr trivial⟩, isLiteral_of_all (by decide), .inr h⟩

/-- The loops that print a list, over items with these values. -/
theorem listText_map {α : Type} (json : α → Json) (as : List α) :
    listText (as.map fun a => rawText [] (json a)) =
      if as = [] then none else some (rawText [] (listValue (as.map json))) := by
  have hlist := listText_eq (as.map json)
  rw [List.map_map] at hlist
  by_cases hnil : as = []
  · rw [hnil]
    rfl
  · rw [if_neg hnil]
    rw [if_neg (by simpa using hnil)] at hlist
    exact hlist

def ErrorResponseMessage.json (e : ErrorResponseMessage) : Json :=
  errorObject e.number (e.reason.getD []) (e.message.getD [])

section Values

variable (c : Compression) (pathList : List GoString)

/-- The text of a time; there is always one. -/
def timeOf (ts : Option GoString) (tsC : Option Int32) : GoString :=
  if c = .pbLevel1 then ts.getD []
  else (dateTime ((tsC.getD 0).toInt + unixEpoch).toNat).rfc3339

/-- The text of a path, an empty one where the list has no such index. -/
def pathOf (path : Option GoString) (pathC : Option Int32) : GoString :=
  (pathText c pathList path pathC).getD []

def DataPoint.json (dp : DataPoint) : Json := pointObject dp.value (timeOf c dp.ts dp.tsC)

def DataPackage.json (p : DataPackage) : Json :=
  packageObject (pathOf c pathList p.path p.pathC) (listValue (p.dp.map (DataPoint.json c)))

def dataJson (data : List DataPackage) : Json :=
  listValue (data.map (DataPackage.json c pathList))

/-- The client has the path, and there is a data point. -/
def DataPackage.Listed (p : DataPackage) : Prop :=
  (pathText c pathList p.path p.pathC).isSome ∧ p.dp ≠ []

/-- The lists that the printer goes through have items. -/
def DataListed (data : List DataPackage) : Prop :=
  data ≠ [] ∧ ∀ p ∈ data, p.Listed c pathList

theorem tsText_eq (ts : Option GoString) (tsC : Option Int32) :
    tsText c ts tsC = some (timeOf c ts tsC) := by
  unfold tsText timeOf
  split
  · rfl
  · exact decompressTs32_eq _

theorem DataPackage.textual (p : DataPackage) : Textual 3 (p.json c pathList) := by
  refine textual_packageObject _ (textual_listValue fun j hj => ?_)
  obtain ⟨dp, -, rfl⟩ := List.mem_map.mp hj
  exact textual_pointObject _ _

theorem dataJson_textual (data : List DataPackage) : Textual 4 (dataJson c pathList data) := by
  refine textual_listValue fun j hj => ?_
  obtain ⟨p, -, rfl⟩ := List.mem_map.mp hj
  exact p.textual c pathList

theorem dataPointText_eq (dp : DataPoint) :
    dataPointText c dp = some (rawText [] (dp.json c)) := by
  rw [dataPointText, tsText_eq]
  simp only [Option.bind_eq_bind, Option.bind_some, DataPoint.json, pointObject, rawText,
    rawMembers, List.append_assoc, List.cons_append, List.nil_append]
  rfl

theorem getJsonDp_eq (p : DataPackage) :
    getJsonDp c p = if p.dp = [] then none
      else some (rawText [] (listValue (p.dp.map (DataPoint.json c)))) := by
  have htexts : p.dp.mapM (dataPointText c) =
      some (p.dp.map fun dp => rawText [] (dp.json c)) :=
    Traversals.mapM_eq_map fun dp _ => dataPointText_eq c dp
  rw [getJsonDp, htexts]
  exact listText_map _ _

theorem dataPackageText_listed {p : DataPackage} (h : p.Listed c pathList) :
    dataPackageText c pathList p = some (rawText [] (p.json c pathList)) := by
  obtain ⟨hpath, hdp⟩ := h
  obtain ⟨path, hpath⟩ := Option.isSome_iff_exists.mp hpath
  rw [dataPackageText, hpath, getJsonDp_eq, if_neg hdp]
  simp only [Option.bind_eq_bind, Option.bind_some, DataPackage.json, packageObject, pathOf, hpath,
    Option.getD_some, rawText, rawMembers, List.append_assoc, List.cons_append, List.nil_append]
  rfl

theorem dataPackageText_unlisted {p : DataPackage} (h : ¬ p.Listed c pathList) :
    dataPackageText c pathList p = none := by
  rw [dataPackageText]
  cases hpath : pathText c pathList p.path p.pathC with
  | none => rfl
  | some path =>
    have hdp : p.dp = [] := by
      by_contra hne
      exact h ⟨by rw [hpath]; rfl, hne⟩
    rw [getJsonDp_eq, if_pos hdp]
    rfl

theorem createJsonData_listed {data : List DataPackage} (h : DataListed c pathList data) :
    createJsonData c pathList data =
      some (memberTail [] (str "data", some (dataJson c pathList data))) := by
  obtain ⟨hne, hlisted⟩ := h
  have htexts : data.mapM (dataPackageText c pathList) =
      some (data.map fun p => rawText [] (p.json c pathList)) :=
    Traversals.mapM_eq_map fun p hp => dataPackageText_listed c pathList (hlisted p hp)
  rw [createJsonData, htexts]
  simp only [Option.bind_eq_bind, Option.bind_some, listText_map, if_neg hne]
  rfl

theorem createJsonData_unlisted {data : List DataPackage} (h : ¬ DataListed c pathList data) :
    createJsonData c pathList data = none := by
  rw [createJsonData]
  by_cases hne : data = []
  · rw [hne]
    rfl
  · have hunlisted : ∃ p ∈ data, ¬ p.Listed c pathList := by
      by_contra hall
      push Not at hall
      exact h ⟨hne, hall⟩
    obtain ⟨p, hp, hp'⟩ := hunlisted
    rw [Traversals.mapM_eq_none hp (dataPackageText_unlisted c pathList hp')]
    rfl

end Values

theorem errorText_eq (e : Option ErrorResponseMessage) :
    errorText e = memberTail [] (str "error", some (e.getD {}).json) := by
  simp only [errorText, ErrorResponseMessage.json, errorObject, memberTail, rawText, rawMembers,
    List.append_assoc, List.cons_append, List.nil_append]
  rfl

theorem tsMember_eq (ts : GoString) : tsMember ts = memberTail [] (str "ts", some (.str ts)) := by
  simp only [tsMember, memberTail, rawText, List.append_assoc]
  rfl

/-! ## Parts of a message -/

section Parts

variable (c : Compression) (pathList : List GoString)

def dataField (data : Option (List DataPackage)) : Field :=
  .value (data.map fun data => ⟨dataJson c pathList data, dataJson_textual c pathList data⟩)

def errorField (error : Option ErrorResponseMessage) : Field :=
  .value (error.map fun e => ⟨e.json, textual_errorObject _ _ _⟩)

/-- The error that is printed. -/
def printedError (status : ResponseStatus) (error : Option ErrorResponseMessage) :
    Option ErrorResponseMessage :=
  if status = .success then none else some (error.getD {})

theorem printed_members (w : GoString) (fields : List (GoString × Field)) :
    rawText [] (fieldsJson .printed ((str "action", .text w) :: fields)) =
      str "\x7b\"action\":\"" ++ (w ++ (str "\"" ++
        ((fieldsTable .printed fields).flatMap (memberTail []) ++ str "\x7d"))) := by
  rw [rawText_fieldsJson, rawText]
  simp only [List.append_assoc, List.cons_append, List.nil_append]
  rfl

theorem errorMember_eq (status : ResponseStatus) (error : Option ErrorResponseMessage) :
    (if status = .success then [] else errorText error) =
      memberTail [] (str "error", (errorField (printedError status error)).json .printed) := by
  unfold printedError
  split
  · rfl
  · exact errorText_eq error

variable {data : List DataPackage} {status : ResponseStatus}

theorem contentText_listed (error : Option ErrorResponseMessage)
    (h : ∀ d ∈ if status = .success then some data else none, DataListed c pathList d) :
    (if status = .success then createJsonData c pathList data else some (errorText error)) =
      some (memberTail [] (str "data", (dataField c pathList
          (if status = .success then some data else none)).json .printed) ++
        memberTail [] (str "error", (errorField (printedError status error)).json .printed)) := by
  by_cases hstatus : status = .success
  · simp only [if_pos hstatus, printedError] at h ⊢
    rw [createJsonData_listed c pathList (h data rfl)]
    exact congrArg some (List.append_nil _).symm
  · simp only [if_neg hstatus, printedError]
    rw [errorText_eq]
    rfl

theorem contentText_unlisted (error : Option ErrorResponseMessage)
    (h : ¬ ∀ d ∈ if status = .success then some data else none, DataListed c pathList d) :
    (if status = .success then createJsonData c pathList data else some (errorText error)) =
      none := by
  by_cases hstatus : status = .success
  · rw [if_pos hstatus] at h ⊢
    exact createJsonData_unlisted c pathList fun hlisted => h (by simpa using hlisted)
  · rw [if_neg hstatus] at h
    exact absurd (by simp) h

end Parts

/-! ## Messages -/

/-- The data that the printer goes through; none where there is none to print. -/
def GrpcResponse.data : GrpcResponse → Option (List DataPackage)
  | .get m =>
      if m.status = .success then some (((m.successResponse.getD {}).dataPack.getD {}).data)
      else none
  | .subscribe m =>
      if m.mType = .event then
        if m.status = .success then
          some ((((m.event.getD {}).successResponse.getD {}).dataPack.getD {}).data)
        else none
      else none
  | _ => none

section Messages

variable (c : Compression) (pathList : List GoString)

/-- The members that the text of a message can have, in their order; a stream message of another
type has none. -/
def GrpcResponse.fields (r : GrpcResponse) : List (GoString × Field) :=
  match r with
  | .get m => [(str "action", .text (str "get")), (str "data", dataField c pathList r.data),
      (str "error", errorField (printedError m.status m.errorResponse)),
      (str "ts", .text (timeOf c m.ts m.tsC)), (str "requestId", .optional m.requestId),
      (str "authorization", .optional m.authorization)]
  | .set m => [(str "action", .text (str "set")),
      (str "error", errorField (printedError m.status m.errorResponse)),
      (str "ts", .text m.ts), (str "requestId", .optional m.requestId),
      (str "authorization", .optional m.authorization)]
  | .unsubscribe m => [(str "action", .text (str "unsubscribe")),
      (str "error", errorField (printedError m.status m.errorResponse)), (str "ts", .text m.ts),
      (str "subscriptionId", .nonEmpty m.subscriptionId),
      (str "requestId", .optional m.requestId)]
  | .subscribe m =>
      match m.mType with
      | .response =>
          let p := m.response.getD {}
          [(str "action", .text (str "subscribe")),
            (str "error", errorField (printedError m.status p.errorResponse)),
            (str "ts", .text p.ts), (str "subscriptionId", .optional p.subscriptionId),
            (str "requestId", .nonEmpty p.requestId),
            (str "authorization", .optional p.authorization)]
      | .event =>
          let e := m.event.getD {}
          [(str "action", .text (str "subscription")), (str "data", dataField c pathList r.data),
            (str "error", errorField (printedError m.status e.errorResponse)),
            (str "ts", .text (timeOf c e.ts e.tsC)),
            (str "subscriptionId", .nonEmpty e.subscriptionId)]
      | .unknown => []

def GrpcResponse.json (reading : Reading) (r : GrpcResponse) : Json :=
  fieldsJson reading (r.fields c pathList)

/-- The data of the message can be printed. -/
def GrpcResponse.Listed (r : GrpcResponse) : Prop := ∀ data ∈ r.data, DataListed c pathList data

/-- No string of the message is left out. -/
def GrpcResponse.Quoted (r : GrpcResponse) : Prop := ∀ p ∈ r.fields c pathList, p.2.Quoted

theorem populateJsonFromProtoGetResp_eq (m : GetResponseMessage) :
    populateJsonFromProtoGetResp c pathList m =
      (if m.status = .success then
        createJsonData c pathList (((m.successResponse.getD {}).dataPack.getD {}).data)
      else some (errorText m.errorResponse)).bind fun content =>
        some (str "\x7b\"action\":\"get\"" ++ content ++ tsMember (timeOf c m.ts m.tsC) ++
          createJSON (m.requestId.getD []) (str "requestId") ++
          createJSON (m.authorization.getD []) (str "authorization") ++ str "\x7d") := by
  unfold populateJsonFromProtoGetResp
  rw [tsText_eq]
  split <;> rfl

/-- A success without an event has no data either. -/
theorem subscribeEventText_eq (status : ResponseStatus) (event : Option SubscribeEventMessage) :
    subscribeEventText c pathList status event =
      (if status = .success then
        createJsonData c pathList
          ((((event.getD {}).successResponse.getD {}).dataPack.getD {}).data)
      else some (errorText (event.getD {}).errorResponse)).bind fun content =>
        some (str "\x7b\"action\":\"subscription\"" ++ content ++
          tsMember (timeOf c (event.getD {}).ts (event.getD {}).tsC) ++
          createJSON (event.getD {}).subscriptionId (str "subscriptionId") ++ str "\x7d") := by
  unfold subscribeEventText
  rw [tsText_eq]
  cases event <;> split <;> rfl

/-- The text of a message whose data can be printed is the text of its value. -/
theorem GrpcResponse.pbToJson_listed {r : GrpcResponse} (h : r.Listed c pathList) :
    r.pbToJson c pathList = some (rawText [] (r.json c pathList .printed)) := by
  unfold GrpcResponse.json
  cases r with
  | get m =>
    have hcontent := contentText_listed c pathList m.errorResponse h
    simp only [GrpcResponse.pbToJson, populateJsonFromProtoGetResp_eq, hcontent,
      GrpcResponse.fields, printed_members, tsMember_eq, createJSON_eq, fieldsTable, List.map_cons,
      List.map_nil, List.flatMap_cons, List.flatMap_nil, Option.bind_some, List.append_assoc]
    rfl
  | set m =>
    simp only [GrpcResponse.pbToJson, populateJsonFromProtoSetResp, errorMember_eq,
      GrpcResponse.fields, printed_members, tsMember_eq, createJSON_eq, fieldsTable, List.map_cons,
      List.map_nil, List.flatMap_cons, List.flatMap_nil, List.append_assoc]
    rfl
  | unsubscribe m =>
    simp only [GrpcResponse.pbToJson, populateJsonFromProtoUnsubscribeResp, errorMember_eq,
      GrpcResponse.fields, printed_members, tsMember_eq, createJSON_eq, fieldsTable, List.map_cons,
      List.map_nil, List.flatMap_cons, List.flatMap_nil, List.append_assoc]
    rfl
  | subscribe m =>
    obtain ⟨mType, status, response, event⟩ := m
    cases mType with
    | unknown => rfl
    | response =>
      simp only [GrpcResponse.pbToJson, populateJsonFromProtoSubscribeStream,
        subscribeResponseText, errorMember_eq, GrpcResponse.fields, printed_members, tsMember_eq,
        createJSON_eq, fieldsTable, List.map_cons, List.map_nil, List.flatMap_cons,
        List.flatMap_nil, List.append_assoc]
      rfl
    | event =>
      have hcontent := contentText_listed c pathList (event.getD {}).errorResponse h
      simp only [GrpcResponse.pbToJson, populateJsonFromProtoSubscribeStream,
        subscribeEventText_eq, hcontent, GrpcResponse.fields, printed_members, tsMember_eq,
        createJSON_eq, fieldsTable, List.map_cons, List.map_nil, List.flatMap_cons,
        List.flatMap_nil, Option.bind_some, List.append_assoc]
      rfl

theorem GrpcResponse.pbToJson_unlisted {r : GrpcResponse} (h : ¬ r.Listed c pathList) :
    r.pbToJson c pathList = none := by
  cases r with
  | get m =>
    have hcontent := contentText_unlisted c pathList m.errorResponse h
    rw [GrpcResponse.pbToJson, populateJsonFromProtoGetResp_eq, hcontent]
    rfl
  | subscribe m =>
    obtain ⟨mType, status, response, event⟩ := m
    cases mType with
    | event =>
      have hcontent := contentText_unlisted c pathList (event.getD {}).errorResponse h
      simp only [GrpcResponse.pbToJson, populateJsonFromProtoSubscribeStream,
        subscribeEventText_eq, hcontent, Option.bind_none]
    | _ => exact absurd (fun _ hdata => by cases hdata) h
  | _ => exact absurd (fun _ hdata => by cases hdata) h

theorem GrpcResponse.names (r : GrpcResponse) : Named ((r.fields c pathList).map Prod.fst) := by
  cases r with
  | subscribe m =>
    obtain ⟨mType, status, response, event⟩ := m
    cases mType <;> exact of_decide_eq_true rfl
  | _ => exact of_decide_eq_true rfl

theorem GrpcResponse.fields_listed (r : GrpcResponse) :
    ∀ p ∈ r.fields c pathList, p.2.Listed := by
  cases r with
  | subscribe m =>
    obtain ⟨mType, status, response, event⟩ := m
    cases mType <;> simp [GrpcResponse.fields, Field.Listed, dataField, errorField]
  | _ => simp [GrpcResponse.fields, Field.Listed, dataField, errorField]

/-- Where a value keeps the strings of the message, the text that is printed means this value if
and only if the data can be printed, no string is left out, all strings are literals, and the
value is the one that is meant. -/
theorem GrpcResponse.pbToJson_keeps_iff (r : GrpcResponse) {v : Json}
    (hkeeps : r.Listed c pathList → Keeps maxNestingDepth (r.json c pathList .meant) v) :
    (∃ s, r.pbToJson c pathList = some s ∧ (parseText s).map canon = some (canon v)) ↔
      r.Listed c pathList ∧ r.Quoted c pathList ∧
        Literal maxNestingDepth (r.json c pathList .meant) ∧
        canon v = canon (r.json c pathList .meant) := by
  by_cases hlisted : r.Listed c pathList
  · have hprinted := GrpcResponse.pbToJson_listed c pathList hlisted
    have hread := fieldsJson_keeps_iff (r.names c pathList) (r.fields_listed c pathList) (hkeeps hlisted)
    simp only [hprinted, Option.some.injEq, exists_eq_left', hlisted, true_and]
    exact hread
  · simp [GrpcResponse.pbToJson_unlisted c pathList hlisted, hlisted]

theorem GrpcResponse.pbToJson_means_iff (r : GrpcResponse) :
    (∃ s, r.pbToJson c pathList = some s ∧
        (parseText s).map canon = some (canon (r.json c pathList .meant))) ↔
      r.Listed c pathList ∧ r.Quoted c pathList ∧
        Literal maxNestingDepth (r.json c pathList .meant) := by
  have htextual := ((fieldsJson_textual (r.names c pathList)).mono
    (show 5 ≤ maxNestingDepth by unfold maxNestingDepth; omega)).1
  have hkeeps := r.pbToJson_keeps_iff c pathList fun _ => .refl htextual
  simpa using hkeeps

end Messages

/-- The texts of a message that can be printed exactly where its lists have items, and that mean
the message exactly where also no string is left out or printed without its quotes and all
strings are literals. -/
structure PrintedFaithfully (text : MayPanic GoString) (json : Json) (listed quoted : Prop) :
    Prop where
  completes : text.isSome ↔ listed
  means : (∃ s, text = some s ∧ (parseText s).map canon = some (canon json)) ↔
    listed ∧ quoted ∧ Literal maxNestingDepth json

/-- Every protobuf message that a client or a server of gRPC can receive, whatever lists are
empty in it, whatever is missing and whatever its strings are. -/
theorem grpc_printed (c : Compression) (pathList : List GoString) :
    (∀ r : GrpcRequest, PrintedFaithfully r.pbToJson (r.json .meant) r.Listed r.Quoted) ∧
      ∀ r : GrpcResponse, PrintedFaithfully (r.pbToJson c pathList) (r.json c pathList .meant)
        (r.Listed c pathList) (r.Quoted c pathList) := by
  refine ⟨fun r => ⟨?_, r.pbToJson_means_iff⟩, fun r => ⟨?_, r.pbToJson_means_iff c pathList⟩⟩
  · by_cases hlisted : r.Listed
    · simp [GrpcRequest.pbToJson_listed hlisted, hlisted]
    · simp [GrpcRequest.pbToJson_unlisted hlisted, hlisted]
  · by_cases hlisted : r.Listed c pathList
    · simp [GrpcResponse.pbToJson_listed c pathList hlisted, hlisted]
    · simp [GrpcResponse.pbToJson_unlisted c pathList hlisted, hlisted]

end VissServer.Utils
