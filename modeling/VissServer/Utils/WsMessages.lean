import VissServer.Utils.GrpcMessages

/-!
The protobuf message of the websocket protocol: made of a JSON text of any method and type, and
turned into a JSON text again (pbutils.go). The functions that a filter, an error or a data
object goes through are those of the gRPC code; a condition of a range has its operator under
logic-op, and only the first filter expression of a request is printed.
-/
namespace VissServer.Utils

open Go

/-- The enumeration is open: a message may hold a number that is none of these. -/
inductive MessageMethod
  | get
  | set
  | subscribe
  | unsubscribe
  | unknown
  deriving DecidableEq

inductive MessageType
  | request
  | response
  | notification
  | unknown
  deriving DecidableEq

structure GetResponse where
  status : ResponseStatus := .success
  successResponse : Option GetSuccessMessage := none
  errorResponse : Option ErrorResponseMessage := none
  requestId : Option GoString := none
  ts : Option GoString := none
  tsC : Option Int32 := none
  deriving DecidableEq

structure GetMessage where
  mType : MessageType := .request
  request : Option GetRequestMessage := none
  response : Option GetResponse := none
  deriving DecidableEq

structure SetResponse where
  status : ResponseStatus := .success
  errorResponse : Option ErrorResponseMessage := none
  requestId : Option GoString := none
  ts : GoString := []
  deriving DecidableEq

structure SetMessage where
  mType : MessageType := .request
  request : Option SetRequestMessage := none
  response : Option SetResponse := none
  deriving DecidableEq

structure SubscribeResponse where
  status : ResponseStatus := .success
  errorResponse : Option ErrorResponseMessage := none
  subscriptionId : GoString := []
  requestId : GoString := []
  ts : GoString := []
  deriving DecidableEq

structure NotificationMessage where
  subscriptionId : GoString := []
  status : ResponseStatus := .success
  successResponse : Option EventSuccessMessage := none
  errorResponse : Option ErrorResponseMessage := none
  ts : Option GoString := none
  tsC : Option Int32 := none
  deriving DecidableEq

structure SubscribeMessage where
  mType : MessageType := .request
  request : Option SubscribeRequestMessage := none
  response : Option SubscribeResponse := none
  notification : Option NotificationMessage := none
  deriving DecidableEq

structure UnSubscribeMessage where
  mType : MessageType := .request
  request : Option UnsubscribeRequestMessage := none
  response : Option UnsubscribeResponseMessage := none
  deriving DecidableEq

structure ProtobufMessage where
  method : MessageMethod := .get
  get : Option GetMessage := none
  set : Option SetMessage := none
  subscribe : Option SubscribeMessage := none
  unSubscribe : Option UnSubscribeMessage := none
  deriving DecidableEq

/-! ## From JSON -/

/-- A message has a type by the members it has; none where the action is unknown. -/
def getMethodAndType (messageMap : GoMap Json) :
    MayPanic (Option (MessageMethod × MessageType)) := do
  let action ← stringAt messageMap (str "action")
  let withPath : MessageType :=
    if isNull (valueAt messageMap (str "path")) then .response else .request
  if action = str "get" then some (some (.get, withPath))
  else if action = str "set" then some (some (.set, withPath))
  else if action = str "subscribe" then some (some (.subscribe, withPath))
  else if action = str "unsubscribe" then
    some (some (.unsubscribe,
      if isNull (valueAt messageMap (str "ts")) then .request else .response))
  else if action = str "subscription" then some (some (.subscribe, .notification))
  else some none

/-- The filter types that a method does not have. -/
def unsupportedFilter (method : MessageMethod) (filterType : FilterType) : Bool :=
  match filterType with
  | .timebased | .range | .change | .curvelog => method = .get
  | .history | .staticMetadata | .dynamicMetadata => method = .subscribe
  | .paths | .unknown => false

/-- The expression has no value where the method does not have the type. -/
def createPbFilter_pb (method : MessageMethod) (filterExpression : GoMap Json) :
    MayPanic FilterExpression := do
  let filterType := getFilterType (← stringAt filterExpression (str "type"))
  if unsupportedFilter method filterType then some ⟨filterType, none⟩
  else
    let value ←
      filterValue (str "logic-op") filterType (valueAt filterExpression (str "parameter"))
    some ⟨filterType, some value⟩

/-- The filter member of a request: two expressions in an array, or one object. Anything
else is passed over. -/
def createPbFilters_pb (method : MessageMethod) : Json → MayPanic (Option FilterExpressions)
  | .arr [first, second] => do
      let first ← createPbFilter_pb method (← asMap first)
      let second ← createPbFilter_pb method (← asMap second)
      some (some ⟨[first, second]⟩)
  | .obj filterExpression => do
      let filterExp ← createPbFilter_pb method filterExpression
      some (some ⟨[filterExp]⟩)
  | _ => some none

def createGetRequest_Pb (messageMap : GoMap Json) : MayPanic GetRequestMessage := do
  let path ← stringAt messageMap (str "path")
  let filter ← createPbFilters_pb .get (valueAt messageMap (str "filter"))
  let authorization ← optionalStringAt messageMap (str "authorization")
  let requestId ← optionalStringAt messageMap (str "requestId")
  some { path, filter, authorization, requestId }

def createSetRequest_Pb (messageMap : GoMap Json) : MayPanic SetRequestMessage := do
  let path ← stringAt messageMap (str "path")
  let value ← stringAt messageMap (str "value")
  let authorization ← optionalStringAt messageMap (str "authorization")
  let requestId ← optionalStringAt messageMap (str "requestId")
  some { path, value, authorization, requestId }

def createSubscribeRequest_Pb (messageMap : GoMap Json) : MayPanic SubscribeRequestMessage := do
  let path ← stringAt messageMap (str "path")
  let filter ← createPbFilters_pb .subscribe (valueAt messageMap (str "filter"))
  let authorization ← optionalStringAt messageMap (str "authorization")
  let requestId ← optionalStringAt messageMap (str "requestId")
  some { path, filter, authorization, requestId := requestId.getD [] }

def createUnSubscribeRequestPb (messageMap : GoMap Json) :
    MayPanic UnsubscribeRequestMessage := do
  let subscriptionId ← stringAt messageMap (str "subscriptionId")
  let requestId ← optionalStringAt messageMap (str "requestId")
  some { subscriptionId, requestId }

section Creating

variable (currentCompression : Compression) (pathList : List GoString)

def createGetResponse_Pb (messageMap : GoMap Json) : MayPanic GetResponse := do
  let requestId ← stringAt messageMap (str "requestId")
  let ts ← stringAt messageMap (str "ts")
  let (status, errorResponse) ← createError messageMap
  let successResponse ← match errorResponse with
    | some _ => some none
    | none => do
        let data ← createDataElements currentCompression pathList messageMap
        some (some (
          if 0 < data.length then { dataPack := some ⟨data⟩ }
          else { metadata := some (marshal (valueAt messageMap (str "metadata"))) }))
  some {
    status, successResponse, errorResponse, requestId := some requestId
    ts := if currentCompression = .pbLevel1 then some ts else none
    tsC := if currentCompression = .pbLevel1 then none else some (compressTS32 ts) }

def createSetResponse_Pb (messageMap : GoMap Json) : MayPanic SetResponse := do
  let requestId ← stringAt messageMap (str "requestId")
  let ts ← stringAt messageMap (str "ts")
  let (status, errorResponse) ← createError messageMap
  some { status, errorResponse, requestId := some requestId, ts }

/-- createSubscribeResponsePb of pbutils.go. -/
def createSubscribeResponse_Pb (messageMap : GoMap Json) : MayPanic SubscribeResponse := do
  let subscriptionId ← stringAt messageMap (str "subscriptionId")
  let requestId ← stringAt messageMap (str "requestId")
  let ts ← stringAt messageMap (str "ts")
  let (status, errorResponse) ← createError messageMap
  some { status, errorResponse, subscriptionId, requestId, ts }

def createSubscribeNotificationPb (messageMap : GoMap Json) : MayPanic NotificationMessage := do
  let subscriptionId ← stringAt messageMap (str "subscriptionId")
  let ts ← stringAt messageMap (str "ts")
  let (status, errorResponse) ← createError messageMap
  let successResponse ← match errorResponse with
    | some _ => some none
    | none => do
        let data ← createDataElements currentCompression pathList messageMap
        some (some { dataPack := some ⟨data⟩ })
  some {
    subscriptionId, status, successResponse, errorResponse
    ts := if currentCompression = .pbLevel1 then some ts else none
    tsC := if currentCompression = .pbLevel1 then none else some (compressTS32 ts) }

/-- createUnSubscribeResponsePb of pbutils.go. -/
def createUnSubscribeResponse_Pb (messageMap : GoMap Json) :
    MayPanic UnsubscribeResponseMessage := do
  let subscriptionId ← stringAt messageMap (str "subscriptionId")
  let requestId ← optionalStringAt messageMap (str "requestId")
  let ts ← stringAt messageMap (str "ts")
  let (status, errorResponse) ← createError messageMap
  some { subscriptionId, status, errorResponse, requestId, ts }

def createGetPb (messageMap : GoMap Json) (mType : MessageType) : MayPanic GetMessage :=
  match mType with
  | .request => do some { mType, request := some (← createGetRequest_Pb messageMap) }
  | .response => do
      let response ← createGetResponse_Pb currentCompression pathList messageMap
      some { mType, response := some response }
  | _ => some { mType }

def createSetPb (messageMap : GoMap Json) (mType : MessageType) : MayPanic SetMessage :=
  match mType with
  | .request => do some { mType, request := some (← createSetRequest_Pb messageMap) }
  | .response => do some { mType, response := some (← createSetResponse_Pb messageMap) }
  | _ => some { mType }

/-- The message of a request is begun anew, which leaves its type at the default. -/
def createSubscribePb (messageMap : GoMap Json) (mType : MessageType) :
    MayPanic SubscribeMessage :=
  match mType with
  | .request => do some { request := some (← createSubscribeRequest_Pb messageMap) }
  | .response => do some { mType, response := some (← createSubscribeResponse_Pb messageMap) }
  | .notification => do
      let notification ← createSubscribeNotificationPb currentCompression pathList messageMap
      some { mType, notification := some notification }
  | .unknown => some { mType }

def createUnSubscribePb (messageMap : GoMap Json) (mType : MessageType) :
    MayPanic UnSubscribeMessage :=
  match mType with
  | .request => do some { mType, request := some (← createUnSubscribeRequestPb messageMap) }
  | .response => do some { mType, response := some (← createUnSubscribeResponse_Pb messageMap) }
  | _ => some { mType }

def createMessage (messageMap : GoMap Json) (mType : MessageType) (mMethod : MessageMethod) :
    MayPanic ProtobufMessage :=
  match mMethod with
  | .get => do
      let get ← createGetPb currentCompression pathList messageMap mType
      some { method := mMethod, get := some get }
  | .set => do some { method := mMethod, set := some (← createSetPb messageMap mType) }
  | .subscribe => do
      let subscribe ← createSubscribePb currentCompression pathList messageMap mType
      some { method := mMethod, subscribe := some subscribe }
  | .unsubscribe => do
      some { method := mMethod, unSubscribe := some (← createUnSubscribePb messageMap mType) }
  | .unknown => some { method := mMethod }

/-- The message that JsonToProtobuf serialises; nil for a text that cannot be decoded into a
map, and for an action that is unknown. -/
def populateProtoFromJson (jsonMessage : GoString) : MayPanic (Option ProtobufMessage) :=
  match unmarshalMap jsonMessage with
  | none => some none
  | some messageMap => do
      match ← getMethodAndType messageMap with
      | none => some none
      | some (mMethod, mType) =>
          (createMessage currentCompression pathList messageMap mType mMethod).map some

end Creating

/-! ## To JSON -/

/-- The filter member, of the first expression; a filter message without one is read beyond its
end. -/
def getJsonFilter_pb : Option FilterExpressions → MayPanic GoString
  | none => some []
  | some filter => do
      let jsonFilter ← synthesizeFilter (← filter.filterExp[0]?)
      some (str ",\"filter\":" ++ jsonFilter)

/-- The authorization of a request. -/
def getJsonAuthorization (value : Option GoString) : GoString :=
  createJSON (value.getD []) (str "authorization")

/-- The identifiers of a message, by what its type has. -/
def getJsonTransactionId (subscriptionId requestId : GoString) : GoString :=
  createJSON subscriptionId (str "subscriptionId") ++ createJSON requestId (str "requestId")

def actionMember (action : GoString) : GoString :=
  str "\"action\":\"" ++ action ++ str "\""

def pathMember (path : GoString) : GoString := str ",\"path\":\"" ++ path ++ str "\""

section Printing

variable (currentCompression : Compression) (pathList : List GoString)

def getRequestJson (m : GetRequestMessage) : MayPanic GoString := do
  let filter ← getJsonFilter_pb m.filter
  some (pathMember m.path ++ filter ++ getJsonAuthorization m.authorization ++
    getJsonTransactionId [] (m.requestId.getD []))

def getResponseJson (m : GetResponse) : MayPanic GoString := do
  let content ←
    if m.status = .success then
      createJsonData currentCompression pathList
        (((m.successResponse.getD {}).dataPack.getD {}).data)
    else some (errorText m.errorResponse)
  let ts ← tsText currentCompression m.ts m.tsC
  some (content ++ tsMember ts ++ getJsonTransactionId [] (m.requestId.getD []))

/-- The value has no quote behind it. -/
def setRequestJson (m : SetRequestMessage) : GoString :=
  pathMember m.path ++ str ",\"value\":\"" ++ m.value ++ getJsonAuthorization m.authorization ++
    getJsonTransactionId [] (m.requestId.getD [])

/-- A success is its time, without a name. -/
def setResponseJson (m : SetResponse) : GoString :=
  if m.status = .success then m.ts else errorText m.errorResponse

def subscribeRequestJson (m : SubscribeRequestMessage) : MayPanic GoString := do
  let filter ← getJsonFilter_pb m.filter
  some (pathMember m.path ++ filter ++ getJsonAuthorization m.authorization ++
    getJsonTransactionId [] m.requestId)

def subscribeResponseJson (m : SubscribeResponse) : GoString :=
  (if m.status = .success then [] else errorText m.errorResponse) ++ tsMember m.ts ++
    getJsonTransactionId m.subscriptionId m.requestId

/-- The error of a notification is read out of the response of the message. -/
def notificationJson (m : SubscribeMessage) : MayPanic GoString := do
  let notification := m.notification.getD {}
  let content ←
    if notification.status = .success then
      createJsonData currentCompression pathList
        (((notification.successResponse.getD {}).dataPack.getD {}).data)
    else some (errorText (m.response.getD {}).errorResponse)
  let ts ← tsText currentCompression notification.ts notification.tsC
  some (content ++ tsMember ts ++ getJsonTransactionId notification.subscriptionId [])

def unSubscribeRequestJson (m : UnsubscribeRequestMessage) : GoString :=
  getJsonTransactionId m.subscriptionId (m.requestId.getD [])

def unSubscribeResponseJson (m : UnsubscribeResponseMessage) : GoString :=
  (if m.status = .success then [] else errorText m.errorResponse) ++
    getJsonTransactionId m.subscriptionId (m.requestId.getD []) ++ tsMember m.ts

/-- The members of a message, without the braces. -/
def membersJson (protoMessage : ProtobufMessage) : MayPanic GoString :=
  match protoMessage.method with
  | .get =>
      let m := protoMessage.get.getD {}
      match m.mType with
      | .request => do some (actionMember (str "get") ++ (← getRequestJson (m.request.getD {})))
      | .response => do
          let response ← getResponseJson currentCompression pathList (m.response.getD {})
          some (actionMember (str "get") ++ response)
      | _ => some (actionMember (str "get"))
  | .set =>
      let m := protoMessage.set.getD {}
      match m.mType with
      | .request => some (actionMember (str "set") ++ setRequestJson (m.request.getD {}))
      | .response => some (actionMember (str "set") ++ setResponseJson (m.response.getD {}))
      | _ => some (actionMember (str "set"))
  | .subscribe =>
      let m := protoMessage.subscribe.getD {}
      match m.mType with
      | .request => do
          some (actionMember (str "subscribe") ++ (← subscribeRequestJson (m.request.getD {})))
      | .response =>
          some (actionMember (str "subscribe") ++ subscribeResponseJson (m.response.getD {}))
      | .notification => do
          let notification ← notificationJson currentCompression pathList m
          some (actionMember (str "subscription") ++ notification)
      | .unknown => some []
  | .unsubscribe =>
      let m := protoMessage.unSubscribe.getD {}
      match m.mType with
      | .request =>
          some (actionMember (str "unsubscribe") ++ unSubscribeRequestJson (m.request.getD {}))
      | .response =>
          some (actionMember (str "unsubscribe") ++ unSubscribeResponseJson (m.response.getD {}))
      | _ => some (actionMember (str "unsubscribe"))
  | .unknown => some []

def populateJsonFromProto (protoMessage : ProtobufMessage) : MayPanic GoString := do
  let members ← membersJson currentCompression pathList protoMessage
  some (str "\x7b" ++ members ++ str "\x7d")

end Printing

end VissServer.Utils
