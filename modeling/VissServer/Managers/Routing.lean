import VissServer.Go.Strings
import VissServer.Utils.Messages

/-!
The routing data of a message. The transport managers build the request that they forward to
the core: the HTTP manager makes a message of an HTTP request, the MQTT manager takes one out of
a payload, and all put the routing data behind the first brace of the text. On the way back to a
client the index of the transport manager is read from the text by the core, and the id of the
client by the hub of the manager (vissv2server.go, utils/managerhandlers.go, mqttMgr.go).
-/
namespace VissServer.Managers

open Go Utils

/-- The index of the next quote mark, the offset itself where there is none. -/
def nextQuoteMark (message : GoString) (offset : ℤ) : ℤ :=
  match index? (str "\"") (message.drop offset.toNat) with
  | some i => offset + i
  | none => offset

/-- The value after the first text RouterId of a response. -/
def getRouterId (response : GoString) : MayPanic GoString :=
  let afterRouterIdKey := index response (str "RouterId")
  if afterRouterIdKey = -1 then some []
  else
    let routerIdValStart := nextQuoteMark response (afterRouterIdKey + (8 + 1)) + 1
    slice response routerIdValStart (nextQuoteMark response routerIdValStart)

/-- A router id without a question mark panics. -/
def extractMgrId (routerId : GoString) : MayPanic ℤ :=
  (slice routerId 0 (index routerId (str "?"))).map atoiIgnoringError

/-- The response without its routing data, and the client id. -/
def removeInternalData (response : GoString) : MayPanic (GoString × ℤ) := do
  let routerIdStart := index response (str "RouterId") - 1
  let fromRouterId ← sliceFrom response routerIdStart
  let clientIdStart := index fromRouterId (str "?") + 1 + routerIdStart
  let clientIdStop := nextQuoteMark response clientIdStart
  let clientId ← slice response clientIdStart clientIdStop
  let afterClientId ← sliceFrom response clientIdStop
  let routerIdStop := index afterClientId (str ",") + 1 + clientIdStop
  let front ← slice response 0 routerIdStart
  let back ← sliceFrom response routerIdStop
  some (front ++ back, atoiIgnoringError clientId)

/-! ## Requests -/

def routerId (mgrId clientId : ℤ) : GoString := itoa mgrId ++ str "?" ++ itoa clientId

def createRouterIdProperty (mgrId clientId : ℤ) : GoString :=
  str "\"RouterId\":\"" ++ routerId mgrId clientId ++ str "\""

/-- AddRoutingForwardRequest of the websocket, HTTP and gRPC managers. -/
def addRoutingForwardRequest (reqMessage : GoString) (mgrId clientId : ℤ) : GoString :=
  replaceFirst reqMessage (str "\x7b") (str "\x7b" ++ createRouterIdProperty mgrId clientId ++
    str ", " ++ str "\"origin\":\"external\", ")

/-- AddRoutingInfoAndForward of the MQTT manager. -/
def addRoutingInfoAndForward (reqMessage : GoString) (mgrId clientId : ℤ) : GoString :=
  replaceFirst reqMessage (str "\x7b")
    (str "\x7b \"RouterId\":\"" ++ routerId mgrId clientId ++ str "\", ")

/-- The value under request of an MQTT payload. -/
def mqttRequest (mqttPayload : GoString) : Json :=
  valueAt ((mapRequest mqttPayload).getD []) (str "request")

/-- The topic and the request text; a topic that is no string panics. -/
def decomposeMqttPayload (mqttPayload : GoString) : MayPanic (GoString × GoString) :=
  (asString (valueAt ((mapRequest mqttPayload).getD []) (str "topic"))).map fun topic =>
    (topic, marshal (mqttRequest mqttPayload))

structure HttpRequest where
  method : GoString
  requestURI : GoString
  authorization : GoString
  body : GoString

/-- The path, the query key and the query value. -/
def splitToPathQueryKeyValue (path : GoString) : MayPanic (GoString × GoString × GoString) :=
  let delim := index path (str "?")
  if delim ≠ -1 then do
    let c ← byteAt path (delim + 1)
    if c = 102 then
      some (← slice path 0 delim, str "filter", ← sliceFrom path (delim + 8))
    else if c = 109 then
      some (← slice path 0 delim, str "metadata", ← sliceFrom path (delim + 10))
    else some (path, [], [])
  else some (path, [], [])

/-- The request URI, in which encoded quotes are decoded and encoded spaces dropped. -/
def httpPath (req : HttpRequest) : GoString :=
  let path := if req.requestURI = [] then str "empty-path" else req.requestURI
  replaceAll (replaceAll path (str "%22") (str "\"")) (str "%20") []

/-- The map that frontendHttpAppSession builds; none where the method is not served. -/
def httpRequestMap (requestTag : ℤ) (req : HttpRequest) (path : GoString) :
    Option (GoMap Json) :=
  let requestMap := GoMap.set [] (str "path") (.str path)
  let requestMap :=
    if req.authorization = [] then requestMap
    else requestMap.set (str "authorization") (.str (trimPrefix req.authorization (str "Bearer ")))
  let requestMap := requestMap.set (str "requestId") (.str (itoa requestTag))
  if req.method = str "OPTIONS" ∨ req.method = str "GET" then
    some (requestMap.set (str "action") (.str (str "get")))
  else if req.method = str "POST" then
    some ((requestMap.set (str "action") (.str (str "set"))).set (str "value") (.str req.body))
  else none

/-- The message that frontendHttpAppSession sends to the hub, and the query value that
was merged into it; the inner none is a method that is not served. -/
def frontendHttpAppSession (requestTag : ℤ) (req : HttpRequest) :
    MayPanic (Option (GoString × GoString)) := do
  let (path, queryKey, queryValue) ← splitToPathQueryKeyValue (httpPath req)
  match httpRequestMap requestTag req path with
  | none => some none
  | some requestMap => do
      let message ← addKeyValue (finalizeMessage requestMap) queryKey queryValue
      some (some (message, queryValue))

end VissServer.Managers
