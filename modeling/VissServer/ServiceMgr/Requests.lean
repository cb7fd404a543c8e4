import VissServer.ServiceMgr.DataPacks

/-!
The request switch in the loop of ServiceMgrInit: what each action answers on the data
channel, and how its handling ends (serviceMgr.go).
-/
namespace VissServer.ServiceMgr

open Go Utils

/-- The handling of a message ends back at the select, in a panic, or never. -/
inductive Ending
  | back (s : State)
  | panic
  | hang

/-- The messages sent on the data channel while a request is handled, and the end. -/
structure Handled where
  answers : List GoString
  ending : Ending

/-- The handling of a request that sends one answer last, unless it panics before. -/
def Handled.once : MayPanic (State × GoString) → Handled
  | none => ⟨[], .panic⟩
  | some (s, answer) => ⟨[answer], .back s⟩

/-- A member of the request, empty where it is no string. -/
def textMember (requestMap : GoMap Json) (k : GoString) : GoString :=
  (asString (valueAt requestMap k)).getD []

/-- The filter member; none where it is missing or an empty string. -/
def filterMember (requestMap : GoMap Json) : Option Json :=
  match valueAt requestMap (str "filter") with
  | .null => none
  | .str [] => none
  | filter => some filter

def responseMapOf (m : Moment) (requestMap : GoMap Json) : GoMap Json :=
  let responseMap := GoMap.ofMembers
    [(str "RouterId", valueAt requestMap (str "RouterId")),
      (str "action", valueAt requestMap (str "action")),
      (str "requestId", valueAt requestMap (str "requestId")),
      (str "ts", .str m.rfcTime)]
  if isNull (valueAt requestMap (str "handle")) then responseMap
  else responseMap.set (str "authorization") (valueAt requestMap (str "handle"))

/-- An error response and the state that keeps its map. -/
def errorAnswer (m : Moment) (s : State) (requestMap : GoMap Json) (errorListIndex : Fin 8)
    (altErrorMessage : GoString := []) : State × GoString :=
  let errorResponseMap :=
    setErrorResponse m.rfcTime requestMap s.errorResponseMap errorListIndex altErrorMessage
  ({ s with errorResponseMap }, finalizeMessage errorResponseMap)

def setRequest (m : Moment) (s : State) (requestMap : GoMap Json) :
    MayPanic (State × GoString) := do
  let path ← asString (valueAt requestMap (str "path"))
  if contains path (str "[") then some (errorAnswer m s requestMap 1)
  else
    let value ← asString (valueAt requestMap (str "value"))
    let ts ← m.setVehicleData path value
    if ts = [] then some (errorAnswer m s requestMap 7)
    else some (s, finalizeMessage ((responseMapOf m requestMap).set (str "ts") (.str ts)))

def serverCapabilities : GoString := str (
  "\x7b\"filter\":[\"paths\",\"timebased\",\"change\",\"range\",\"curvelog\",\"history\"," ++
  "\"dynamic-metadata\",\"static-metadata\"],\"access_ctrl\":[\"short_term\",\"long_term\"," ++
  "\"signalset_claim\"],\"transport_protocol\":[\"https\",\"wss\",\"mqtts\"]\x7d")

def dataAnswer (cfg : Config) (m : Moment) (s : State) (requestMap : GoMap Json)
    (pathArray : List GoString) (filterList : List FilterObject) :
    MayPanic (State × GoString) := do
  let dataPack ← getDataPack cfg m pathArray filterList
  if dataPack = [] then some (errorAnswer m s requestMap 6)
  else
    let message ←
      addPackage (finalizeMessage (responseMapOf m requestMap)) (str "data") dataPack
    some (s, message)

def getRequest (cfg : Config) (m : Moment) (s : State) (requestMap : GoMap Json) :
    MayPanic (State × GoString) := do
  let path ← asString (valueAt requestMap (str "path"))
  match unpackPaths path with
  | none => some (errorAnswer m s requestMap 1)
  | some pathArray =>
      match (filterMember requestMap).map (unpackFilter m.range) with
      | none => dataAnswer cfg m s requestMap pathArray []
      | some [] => some (errorAnswer m s requestMap 0)
      | some (f :: filterList) =>
          if f.type = str "dynamic-metadata" ∧ f.parameter = str "server_capabilities" then do
            let message ← addPackage (finalizeMessage (responseMapOf m requestMap))
              (str "metadata") serverCapabilities
            some (s, message)
          else dataAnswer cfg m s requestMap pathArray (f :: filterList)

/-- The gating id of a request, empty where there is none; any other value panics. -/
def gatingIdMember (requestMap : GoMap Json) : MayPanic GoString :=
  if isNull (valueAt requestMap (str "gatingId")) then some []
  else asString (valueAt requestMap (str "gatingId"))

/-- The part of a subscribe request behind the checks of its filter. -/
def addSubscription (m : Moment) (s : State) (requestMap : GoMap Json) (routerId : GoString)
    (paths : List GoString) (filterList : List FilterObject) : MayPanic (State × GoString) := do
  let gatingId ← gatingIdMember requestMap
  let path ← paths.head?
  let entry : SubscriptionState :=
    { subscriptionId := s.subscriptionId
      routerId
      path := paths
      filterList
      latestDataPoint := m.vehicleData path
      gatingId }
  let s' ← activateIfIntervalOrCL { s with subscriptionList := s.subscriptionList ++ [entry] }
    filterList s.subscriptionId paths
  some ({ s' with subscriptionId := s.subscriptionId + 1 },
    finalizeMessage ((responseMapOf m requestMap).set (str "subscriptionId")
      (.str (itoa s.subscriptionId))))

/-- An empty filter list is answered by an error, but the subscription is made. -/
def subscribeRequest (m : Moment) (s : State) (requestMap : GoMap Json) : Handled :=
  match asString (valueAt requestMap (str "RouterId")),
      asString (valueAt requestMap (str "path")) with
  | some routerId, some path =>
      let paths := (unpackPaths path).getD []
      match filterMember requestMap with
      | none => .once (some (errorAnswer m s requestMap 0))
      | some filter =>
          match unpackFilter m.range filter with
          | [] =>
              let (s, answer) := errorAnswer m s requestMap 1
              let rest := Handled.once (addSubscription m s requestMap routerId paths [])
              ⟨answer :: rest.answers, rest.ending⟩
          | f :: filterList =>
              .once (addSubscription m s requestMap routerId paths (f :: filterList))
  | _, _ => ⟨[], .panic⟩

def unsubscribeRequest (m : Moment) (s : State) (requestMap : GoMap Json) :
    MayPanic (State × GoString) :=
  match asString (valueAt requestMap (str "subscriptionId")) with
  | none => some (errorAnswer m s requestMap 1)
  | some subscriptId => do
      match ← deactivateSubscription s subscriptId with
      | none => some (errorAnswer m s requestMap 1)
      | some s => some (s, finalizeMessage
          ((responseMapOf m requestMap).set (str "subscriptionId") (.str subscriptId)))

/-- The loop of internal-killsubscriptions. A pass that removes no entry is repeated for
ever, so that more passes than entries mean that the loop does not end. -/
def killLoop (routerId : GoString) : ℕ → State → Ending
  | 0, _ => .hang
  | passes + 1, s =>
      match scanAndRemoveListItem s routerId with
      | none => .panic
      | some (false, s) => .back s
      | some (true, s) => killLoop routerId passes s

def killSubscriptions (s : State) (requestMap : GoMap Json) : Handled :=
  match asString (valueAt requestMap (str "RouterId")) with
  | none => ⟨[], .panic⟩
  | some routerId => ⟨[], killLoop routerId (s.subscriptionList.length + 1) s⟩

/-- A gating id that is not found is not answered. -/
def cancelSubscription (m : Moment) (s : State) (requestMap : GoMap Json) : Handled :=
  match asString (valueAt requestMap (str "gatingId")) with
  | none => ⟨[], .panic⟩
  | some gatingId =>
      let (routerId, subscriptionId) := getSubscriptionData s.subscriptionList gatingId
      if routerId = [] then ⟨[], .back s⟩
      else
        let requestMap := requestMap.set (str "RouterId") (.str routerId)
        let requestMap := requestMap.set (str "action") (.str (str "subscription"))
        let requestMap := requestMap.set (str "requestId") .null
        let requestMap := requestMap.set (str "subscriptionId") (.str subscriptionId)
        let (s, answer) :=
          errorAnswer m s requestMap 2 (str "Token expired or consent cancelled.")
        ⟨[answer], match scanAndRemoveListItem s routerId with
          | none => .panic
          | some (_, s) => .back s⟩

/-- The actions of the request switch. -/
inductive Action
  | set
  | get
  | subscribe
  | unsubscribe
  | killSubscriptions
  | cancelSubscription
  | other
  deriving DecidableEq

def actionOf (requestMap : GoMap Json) : Action :=
  let action := textMember requestMap (str "action")
  if action = str "set" then .set
  else if action = str "get" then .get
  else if action = str "subscribe" then .subscribe
  else if action = str "unsubscribe" then .unsubscribe
  else if action = str "internal-killsubscriptions" then .killSubscriptions
  else if action = str "internal-cancelsubscription" then .cancelSubscription
  else .other

/-- The map of a request; a text that is no object leaves it empty. -/
def requestMapOf (request : GoString) : GoMap Json := (mapRequest request).getD []

def handleRequest (cfg : Config) (m : Moment) (s : State) (request : GoString) : Handled :=
  let requestMap := requestMapOf request
  match actionOf requestMap with
  | .set => .once (setRequest m s requestMap)
  | .get => .once (getRequest cfg m s requestMap)
  | .subscribe => subscribeRequest m s requestMap
  | .unsubscribe => .once (unsubscribeRequest m s requestMap)
  | .killSubscriptions => killSubscriptions s requestMap
  | .cancelSubscription => cancelSubscription m s requestMap
  | .other => .once (some (errorAnswer m s requestMap 1))

end VissServer.ServiceMgr
