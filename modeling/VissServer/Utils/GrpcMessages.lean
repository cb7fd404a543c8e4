import VissServer.Utils.LocalTimes
import VissServer.Utils.PathIndices
import VissServer.Utils.ProtoMessages

/-!
The messages of gRPC (grcputils.go). A request is made of a JSON text by the client, and turned
into a JSON text again by the server; the compression level does not matter for it. A response
or a notification is made of a JSON text by the server, and turned into a JSON text again by the
client: with the first compression level times and paths are texts; with any other level a time
is a number of seconds and a path an index of the path list.
-/
namespace VissServer.Utils

open Go

/-! ## Requests -/

structure GetRequestMessage where
  path : GoString := []
  filter : Option FilterExpressions := none
  authorization : Option GoString := none
  requestId : Option GoString := none
  deriving DecidableEq

structure SetRequestMessage where
  path : GoString := []
  value : GoString := []
  authorization : Option GoString := none
  requestId : Option GoString := none
  deriving DecidableEq

structure SubscribeRequestMessage where
  path : GoString := []
  filter : Option FilterExpressions := none
  authorization : Option GoString := none
  requestId : GoString := []
  deriving DecidableEq

structure UnsubscribeRequestMessage where
  subscriptionId : GoString := []
  requestId : Option GoString := none
  deriving DecidableEq

/-! ## From JSON -/

/-- A filter expression with the value that its parameter gives; a condition of a range has
its operator under boundary-op. -/
def createPbFilter (filterExpression : GoMap Json) : MayPanic FilterExpression := do
  let filterType := getFilterType (← stringAt filterExpression (str "type"))
  let value ← filterValue (str "boundary-op") filterType (valueAt filterExpression (str "parameter"))
  some ⟨filterType, some value⟩

/-- The filter member of a request: two expressions in an array, or one object. Anything
else is passed over. -/
def createPbFilters : Json → MayPanic (Option FilterExpressions)
  | .arr [first, second] => do
      let first ← createPbFilter (← asMap first)
      let second ← createPbFilter (← asMap second)
      some (some ⟨[first, second]⟩)
  | .obj filterExpression => do
      let filterExp ← createPbFilter filterExpression
      some (some ⟨[filterExp]⟩)
  | _ => some none

def createGetRequestPb (messageMap : GoMap Json) : MayPanic GetRequestMessage := do
  let path ← stringAt messageMap (str "path")
  let filter ← createPbFilters (valueAt messageMap (str "filter"))
  let authorization ← optionalStringAt messageMap (str "authorization")
  let requestId ← optionalStringAt messageMap (str "requestId")
  some { path, filter, authorization, requestId }

def createSetRequestPb (messageMap : GoMap Json) : MayPanic SetRequestMessage := do
  let path ← stringAt messageMap (str "path")
  let value ← stringAt messageMap (str "value")
  let authorization ← optionalStringAt messageMap (str "authorization")
  let requestId ← optionalStringAt messageMap (str "requestId")
  some { path, value, authorization, requestId }

def createSubscribeRequestPb (messageMap : GoMap Json) : MayPanic SubscribeRequestMessage := do
  let path ← stringAt messageMap (str "path")
  let filter ← createPbFilters (valueAt messageMap (str "filter"))
  let authorization ← optionalStringAt messageMap (str "authorization")
  let requestId ← optionalStringAt messageMap (str "requestId")
  some { path, filter, authorization, requestId := requestId.getD [] }

def createUnsubscribeRequestPb (messageMap : GoMap Json) :
    MayPanic UnsubscribeRequestMessage := do
  let subscriptionId ← stringAt messageMap (str "subscriptionId")
  let requestId ← optionalStringAt messageMap (str "requestId")
  some { subscriptionId, requestId }

/-- The *RequestJsonToPb functions; nil for a text that cannot be decoded into a map. -/
def requestJsonToPb {α : Type} (create : GoMap Json → MayPanic α) (vssReq : GoString) :
    MayPanic (Option α) :=
  match unmarshalMap vssReq with
  | none => some none
  | some messageMap => (create messageMap).map some

def getRequestJsonToPb : GoString → MayPanic (Option GetRequestMessage) :=
  requestJsonToPb createGetRequestPb

def setRequestJsonToPb : GoString → MayPanic (Option SetRequestMessage) :=
  requestJsonToPb createSetRequestPb

def subscribeRequestJsonToPb : GoString → MayPanic (Option SubscribeRequestMessage) :=
  requestJsonToPb createSubscribeRequestPb

def unsubscribeRequestJsonToPb : GoString → MayPanic (Option UnsubscribeRequestMessage) :=
  requestJsonToPb createUnsubscribeRequestPb

/-! ## To JSON -/

/-- The filter member; a filter message without an expression is cut to a negative length. -/
def getJsonFilter : Option FilterExpressions → MayPanic GoString
  | none => some []
  | some filter => do
      let jsonFilter ← listText (← filter.filterExp.mapM synthesizeFilter)
      some (str ",\"filter\":" ++ jsonFilter)

def getRequestPbToJson (pbGetReq : GetRequestMessage) : MayPanic GoString := do
  let filter ← getJsonFilter pbGetReq.filter
  some (str "\x7b\"action\":\"get\",\"path\":\"" ++ pbGetReq.path ++ str "\"" ++ filter ++
    createJSON (pbGetReq.authorization.getD []) (str "authorization") ++
    createJSON (pbGetReq.requestId.getD []) (str "requestId") ++ str "\x7d")

def setRequestPbToJson (pbSetReq : SetRequestMessage) : GoString :=
  str "\x7b\"action\":\"set\",\"path\":\"" ++ pbSetReq.path ++ str "\",\"value\":\"" ++
    pbSetReq.value ++ str "\"" ++
    createJSON (pbSetReq.authorization.getD []) (str "authorization") ++
    createJSON (pbSetReq.requestId.getD []) (str "requestId") ++ str "\x7d"

def subscribeRequestPbToJson (pbSubscribeReq : SubscribeRequestMessage) : MayPanic GoString := do
  let filter ← getJsonFilter pbSubscribeReq.filter
  some (str "\x7b\"action\":\"subscribe\",\"path\":\"" ++ pbSubscribeReq.path ++ str "\"" ++
    filter ++ createJSON (pbSubscribeReq.authorization.getD []) (str "authorization") ++
    createJSON pbSubscribeReq.requestId (str "requestId") ++ str "\x7d")

def unsubscribeRequestPbToJson (pbUnsubscribeReq : UnsubscribeRequestMessage) : GoString :=
  str "\x7b\"action\":\"unsubscribe\"" ++
    createJSON pbUnsubscribeReq.subscriptionId (str "subscriptionId") ++
    createJSON (pbUnsubscribeReq.requestId.getD []) (str "requestId") ++ str "\x7d"

/-! ## Responses and notifications -/

inductive SubscribeResponseType
  | response
  | event
  | unknown
  deriving DecidableEq

structure GetSuccessMessage where
  dataPack : Option DataPackages := none
  metadata : Option GoString := none
  deriving DecidableEq

structure GetResponseMessage where
  status : ResponseStatus := .success
  successResponse : Option GetSuccessMessage := none
  errorResponse : Option ErrorResponseMessage := none
  requestId : Option GoString := none
  ts : Option GoString := none
  tsC : Option Int32 := none
  authorization : Option GoString := none
  deriving DecidableEq

structure SetResponseMessage where
  status : ResponseStatus := .success
  errorResponse : Option ErrorResponseMessage := none
  requestId : Option GoString := none
  ts : GoString := []
  authorization : Option GoString := none
  deriving DecidableEq

structure SubscribeResponseMessage where
  errorResponse : Option ErrorResponseMessage := none
  subscriptionId : Option GoString := none
  requestId : GoString := []
  ts : GoString := []
  authorization : Option GoString := none
  deriving DecidableEq

structure EventSuccessMessage where
  dataPack : Option DataPackages := none
  deriving DecidableEq

structure SubscribeEventMessage where
  subscriptionId : GoString := []
  successResponse : Option EventSuccessMessage := none
  errorResponse : Option ErrorResponseMessage := none
  ts : Option GoString := none
  tsC : Option Int32 := none
  deriving DecidableEq

structure SubscribeStreamMessage where
  mType : SubscribeResponseType := .response
  status : ResponseStatus := .success
  response : Option SubscribeResponseMessage := none
  event : Option SubscribeEventMessage := none
  deriving DecidableEq

structure UnsubscribeResponseMessage where
  subscriptionId : GoString := []
  status : ResponseStatus := .success
  errorResponse : Option ErrorResponseMessage := none
  requestId : Option GoString := none
  ts : GoString := []
  deriving DecidableEq

/-! ## From JSON -/

/-- An element for each item of an array, one for any other value, none for nil; what is no
object panics. -/
def createElements {α : Type} (create : GoMap Json → MayPanic α) : Json → MayPanic (List α)
  | .null => some []
  | .arr items => items.mapM fun item => do create (← asMap item)
  | value => do some [← create (← asMap value)]

/-- The string under the key, where the key is there. -/
def stringUnder (m : GoMap Json) (k : GoString) : MayPanic (Option GoString) :=
  match m.get k with
  | none => some none
  | some v => (asString v).map some

def getProtoErrorMessage (messageErrorMap : GoMap Json) : MayPanic ErrorResponseMessage := do
  let number ← stringUnder messageErrorMap (str "number")
  let reason ← stringUnder messageErrorMap (str "reason")
  let message ← stringUnder messageErrorMap (str "message")
  some { number := number.getD [], reason, message }

/-- The status of a message and its error. -/
def createError (messageMap : GoMap Json) :
    MayPanic (ResponseStatus × Option ErrorResponseMessage) :=
  if isNull (valueAt messageMap (str "error")) then some (.success, none)
  else do
    let error ← getProtoErrorMessage (← asMap (valueAt messageMap (str "error")))
    some (.error, some error)

section Creating

variable (currentCompression : Compression) (pathList : List GoString)

def createDataPointElement (dataPointObject : GoMap Json) : MayPanic DataPoint := do
  let value ← stringAt dataPointObject (str "value")
  let ts ← stringAt dataPointObject (str "ts")
  if currentCompression = .pbLevel1 then some { value, ts := some ts }
  else some { value, tsC := some (compressTS32 ts) }

def createDataElement (dataObject : GoMap Json) : MayPanic DataPackage := do
  let path ← stringAt dataObject (str "path")
  let dp ← createElements (createDataPointElement currentCompression)
    (valueAt dataObject (str "dp"))
  if currentCompression = .pbLevel1 then some { path := some path, dp }
  else some { pathC := some (compressPath32 pathList path), dp }

def createDataElements (messageMap : GoMap Json) : MayPanic (List DataPackage) :=
  createElements (createDataElement currentCompression pathList) (valueAt messageMap (str "data"))

def createGetResponsePb (messageMap : GoMap Json) : MayPanic GetResponseMessage := do
  let requestId ← stringAt messageMap (str "requestId")
  let ts ← stringAt messageMap (str "ts")
  let authorization ← optionalStringAt messageMap (str "authorization")
  let (status, errorResponse) ← createError messageMap
  let successResponse ← match errorResponse with
    | some _ => some none
    | none => do
        let data ← createDataElements currentCompression pathList messageMap
        some (some (
          if 0 < data.length then { dataPack := some ⟨data⟩ }
          else { metadata := some (marshal (valueAt messageMap (str "metadata"))) }))
  some {
    status, successResponse, errorResponse, requestId := some requestId, authorization
    ts := if currentCompression = .pbLevel1 then some ts else none
    tsC := if currentCompression = .pbLevel1 then none else some (compressTS32 ts) }

def createSetResponsePb (messageMap : GoMap Json) : MayPanic SetResponseMessage := do
  let requestId ← stringAt messageMap (str "requestId")
  let ts ← stringAt messageMap (str "ts")
  let authorization ← optionalStringAt messageMap (str "authorization")
  let (status, errorResponse) ← createError messageMap
  some { status, errorResponse, requestId := some requestId, ts, authorization }

def createSubscribeResponsePb (messageMap : GoMap Json) : MayPanic SubscribeStreamMessage := do
  let requestId ← stringAt messageMap (str "requestId")
  let ts ← stringAt messageMap (str "ts")
  let authorization ← optionalStringAt messageMap (str "authorization")
  let (status, errorResponse) ← createError messageMap
  let subscriptionId ← match errorResponse with
    | some _ => some none
    | none => optionalStringAt messageMap (str "subscriptionId")
  some {
    mType := .response, status
    response := some { errorResponse, subscriptionId, requestId, ts, authorization } }

def createSubscribeEventPb (messageMap : GoMap Json) : MayPanic SubscribeStreamMessage := do
  let subscriptionId ← stringAt messageMap (str "subscriptionId")
  let ts ← stringAt messageMap (str "ts")
  let (status, errorResponse) ← createError messageMap
  let successResponse ← match errorResponse with
    | some _ => some none
    | none => do
        let data ← createDataElements currentCompression pathList messageMap
        some (some { dataPack := some ⟨data⟩ })
  some {
    mType := .event, status
    event := some {
      subscriptionId, successResponse, errorResponse
      ts := if currentCompression = .pbLevel1 then some ts else none
      tsC := if currentCompression = .pbLevel1 then none else some (compressTS32 ts) } }

/-- Any action but subscribe is taken for a notification. -/
def createSubscribeStreamPb (messageMap : GoMap Json) : MayPanic SubscribeStreamMessage :=
  if asString (valueAt messageMap (str "action")) = some (str "subscribe") then
    createSubscribeResponsePb messageMap
  else createSubscribeEventPb currentCompression pathList messageMap

def createUnsubscribeResponsePb (messageMap : GoMap Json) :
    MayPanic UnsubscribeResponseMessage := do
  let subscriptionId ← stringAt messageMap (str "subscriptionId")
  let requestId ← optionalStringAt messageMap (str "requestId")
  let ts ← stringAt messageMap (str "ts")
  let (status, errorResponse) ← createError messageMap
  some { subscriptionId, status, errorResponse, requestId, ts }

/-- The messages that the server sends. -/
inductive GrpcResponse
  | get (m : GetResponseMessage)
  | set (m : SetResponseMessage)
  | subscribe (m : SubscribeStreamMessage)
  | unsubscribe (m : UnsubscribeResponseMessage)
  deriving DecidableEq

def getResponseJsonToPb : GoString → MayPanic (Option GetResponseMessage) :=
  requestJsonToPb (createGetResponsePb currentCompression pathList)

def setResponseJsonToPb : GoString → MayPanic (Option SetResponseMessage) :=
  requestJsonToPb createSetResponsePb

def subscribeStreamJsonToPb : GoString → MayPanic (Option SubscribeStreamMessage) :=
  requestJsonToPb (createSubscribeStreamPb currentCompression pathList)

def unsubscribeResponseJsonToPb : GoString → MayPanic (Option UnsubscribeResponseMessage) :=
  requestJsonToPb createUnsubscribeResponsePb

end Creating

/-! ## To JSON -/

section Printing

variable (currentCompression : Compression) (pathList : List GoString)

/-- The text of a time, by its two fields. -/
def tsText (ts : Option GoString) (tsC : Option Int32) : MayPanic GoString :=
  if currentCompression = .pbLevel1 then some (ts.getD []) else decompressTs32 (tsC.getD 0)

/-- The text of a path, by its two fields. -/
def pathText (path : Option GoString) (pathC : Option Int32) : MayPanic GoString :=
  if currentCompression = .pbLevel1 then some (path.getD [])
  else decompressPath32 pathList (pathC.getD 0)

def dataPointText (dp : DataPoint) : MayPanic GoString := do
  let ts ← tsText currentCompression dp.ts dp.tsC
  some (str "\x7b\"value\":\"" ++ dp.value ++ str "\",\"ts\":\"" ++ ts ++ str "\"\x7d")

def getJsonDp (dataPack : DataPackage) : MayPanic GoString := do
  listText (← dataPack.dp.mapM (dataPointText currentCompression))

def dataPackageText (dataPack : DataPackage) : MayPanic GoString := do
  let path ← pathText currentCompression pathList dataPack.path dataPack.pathC
  let dp ← getJsonDp currentCompression dataPack
  some (str "\x7b\"path\":\"" ++ path ++ str "\",\"dp\":" ++ dp ++ str "\x7d")

def createJsonData (dataPack : List DataPackage) : MayPanic GoString := do
  let data ← listText (← dataPack.mapM (dataPackageText currentCompression pathList))
  some (str ",\"data\":" ++ data)

/-- The member ts. -/
def tsMember (ts : GoString) : GoString := str ",\"ts\":\"" ++ ts ++ str "\""

def populateJsonFromProtoGetResp (protoMessage : GetResponseMessage) : MayPanic GoString := do
  let content ←
    if protoMessage.status = .success then
      createJsonData currentCompression pathList
        (((protoMessage.successResponse.getD {}).dataPack.getD {}).data)
    else some (errorText protoMessage.errorResponse)
  let ts ← tsText currentCompression protoMessage.ts protoMessage.tsC
  some (str "\x7b\"action\":\"get\"" ++ content ++ tsMember ts ++
    createJSON (protoMessage.requestId.getD []) (str "requestId") ++
    createJSON (protoMessage.authorization.getD []) (str "authorization") ++ str "\x7d")

def populateJsonFromProtoSetResp (protoMessage : SetResponseMessage) : GoString :=
  str "\x7b\"action\":\"set\"" ++
    (if protoMessage.status = .success then [] else errorText protoMessage.errorResponse) ++
    tsMember protoMessage.ts ++
    createJSON (protoMessage.requestId.getD []) (str "requestId") ++
    createJSON (protoMessage.authorization.getD []) (str "authorization") ++ str "\x7d"

/-- The response of a stream. -/
def subscribeResponseText (status : ResponseStatus) (response : SubscribeResponseMessage) :
    GoString :=
  str "\x7b\"action\":\"subscribe\"" ++
    (if status = .success then [] else errorText response.errorResponse) ++
    tsMember response.ts ++
    createJSON (response.subscriptionId.getD []) (str "subscriptionId") ++
    createJSON response.requestId (str "requestId") ++
    createJSON (response.authorization.getD []) (str "authorization") ++ str "\x7d"

/-- The notification of a stream; a success without an event is read through a nil pointer. -/
def subscribeEventText (status : ResponseStatus) (event : Option SubscribeEventMessage) :
    MayPanic GoString := do
  let content ←
    if status = .success then do
      let event ← event
      createJsonData currentCompression pathList
        (((event.successResponse.getD {}).dataPack.getD {}).data)
    else some (errorText ((event.getD {}).errorResponse))
  let ts ← tsText currentCompression (event.getD {}).ts (event.getD {}).tsC
  some (str "\x7b\"action\":\"subscription\"" ++ content ++ tsMember ts ++
    createJSON (event.getD {}).subscriptionId (str "subscriptionId") ++ str "\x7d")

def populateJsonFromProtoSubscribeStream (protoMessage : SubscribeStreamMessage) :
    MayPanic GoString :=
  match protoMessage.mType with
  | .response => some (subscribeResponseText protoMessage.status (protoMessage.response.getD {}))
  | .event =>
      subscribeEventText currentCompression pathList protoMessage.status protoMessage.event
  | .unknown => some (str "\x7b\x7d")

def populateJsonFromProtoUnsubscribeResp (protoMessage : UnsubscribeResponseMessage) : GoString :=
  str "\x7b\"action\":\"unsubscribe\"" ++
    (if protoMessage.status = .success then [] else errorText protoMessage.errorResponse) ++
    tsMember protoMessage.ts ++
    createJSON protoMessage.subscriptionId (str "subscriptionId") ++
    createJSON (protoMessage.requestId.getD []) (str "requestId") ++ str "\x7d"

/-- The *ResponsePbToJson functions and SubscribeStreamPbToJson. -/
def GrpcResponse.pbToJson : GrpcResponse → MayPanic GoString
  | .get m => populateJsonFromProtoGetResp currentCompression pathList m
  | .set m => some (populateJsonFromProtoSetResp m)
  | .subscribe m => populateJsonFromProtoSubscribeStream currentCompression pathList m
  | .unsubscribe m => some (populateJsonFromProtoUnsubscribeResp m)

end Printing

end VissServer.Utils
