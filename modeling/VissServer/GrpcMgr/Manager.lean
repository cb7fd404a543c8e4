import Mathlib.Logic.Equiv.Fin.Basic
import VissServer.Library.Runs
import VissServer.Managers.Routing
import VissServer.Utils.GrpcMessages

/-!
The gRPC manager (grpcMgr.go): the handlers of the remote procedure calls, the table of the
client indexes, the routing table, and the loop that serves the calls and the messages of the
core one by one. A send to a channel is taken to be received, except to a nil channel, where
the loop waits for ever.
-/
namespace VissServer.GrpcMgr

open Go Utils Managers

def maxGrpcClients : ℕ := 50

def killMessage : GoString := str "kill subscription"

/-- A call of a client, with its message. -/
inductive Call
  | get (message : GetRequestMessage)
  | set (message : SetRequestMessage)
  | subscribe (message : SubscribeRequestMessage)
  | unsubscribe (message : UnsubscribeRequestMessage)
  deriving DecidableEq

/-- The text that the handler of the call makes of its message. -/
def Call.vssReq : Call → MayPanic GoString
  | .get message => getRequestPbToJson message
  | .set message => some (setRequestPbToJson message)
  | .subscribe message => subscribeRequestPbToJson message
  | .unsubscribe message => some (unsubscribeRequestPbToJson message)

/-- A channel that the handler of a call made, with its number among all of them. -/
structure RespChannel where
  number : ℕ
  call : Call
  deriving DecidableEq

structure GrpcRoutingData where
  clientId : ℤ
  subscriptionId : GoString
  grpcRespChannel : Option RespChannel
  isMultipleEvents : Bool

/-- The two tables of the manager. -/
structure Tables where
  grpcClientIndexList : Fin maxGrpcClients → Bool
  grpcRoutingDataList : Fin maxGrpcClients → GrpcRoutingData

/-- What the manager does besides changing its tables. Messages to a call are sent for a
client id; a call that gets no client id is refused. -/
inductive Effect
  | setGrpcRoutingData (clientId : ℤ) (channel : RespChannel)
  | resetClientId (clientId : ℤ)
  | forward (request : GoString)
  | send (clientId : ℤ) (channel : RespChannel) (message : GoString)
  | refuse (channel : RespChannel) (message : GoString)

/-- The client id that a call gets, with its channel. -/
def Effect.registration? : Effect → Option (ℤ × RespChannel)
  | .setGrpcRoutingData clientId channel => some (clientId, channel)
  | _ => none

inductive Status
  | running
  | panicked
  | blocked
  deriving DecidableEq

/-- The tables behind some code, its effects, and whether the code ended. -/
structure Outcome where
  tables : Tables
  effects : List Effect
  status : Status

/-- The code that follows runs only where the code before it ended. -/
def Outcome.andThen (o : Outcome) (f : Tables → Outcome) : Outcome :=
  if o.status = .running then
    let o' := f o.tables
    ⟨o'.tables, o.effects ++ o'.effects, o'.status⟩
  else o

/-! ## The tables -/

/-- The first index with a property. -/
def firstIndex (p : Fin maxGrpcClients → Bool) : Option (Fin maxGrpcClients) :=
  (List.finRange maxGrpcClients).find? p

/-- The first routing entry with a property. -/
def Tables.firstEntry (t : Tables) (p : GrpcRoutingData → Bool) : Option (Fin maxGrpcClients) :=
  firstIndex fun j => p (t.grpcRoutingDataList j)

def Tables.setEntry (t : Tables) (j : Fin maxGrpcClients) (entry : GrpcRoutingData) : Tables :=
  { t with grpcRoutingDataList := Function.update t.grpcRoutingDataList j entry }

def Tables.markIndex (t : Tables) (i : Fin maxGrpcClients) (used : Bool) : Tables :=
  { t with grpcClientIndexList := Function.update t.grpcClientIndexList i used }

/-- The first index that is not used, which is marked; none stands for -1. -/
def getClientId (t : Tables) : Option (Fin maxGrpcClients × Tables) :=
  (firstIndex fun i => !t.grpcClientIndexList i).map fun i => (i, t.markIndex i true)

def getGrpcRoutingData (t : Tables) (clientId : ℤ) : Option RespChannel × Bool :=
  match t.firstEntry (fun entry => entry.clientId = clientId) with
  | some j =>
      ((t.grpcRoutingDataList j).grpcRespChannel, (t.grpcRoutingDataList j).isMultipleEvents)
  | none => (none, false)

def updateGrpcRoutingData (t : Tables) (clientId : ℤ) (subscriptionId : GoString) : Tables :=
  match t.firstEntry (fun entry => entry.clientId = clientId) with
  | some j => t.setEntry j { t.grpcRoutingDataList j with subscriptionId }
  | none => t

/-- The subscription id of a response, empty where the response cannot be decoded; an id
that is no string panics. -/
def getSubscriptionId (resp : GoString) : MayPanic GoString :=
  match unmarshalMap resp with
  | none => some []
  | some respMap => stringAt respMap (str "subscriptionId")

def getSubscribeRoutingData (t : Tables) (unsubResp : GoString) :
    MayPanic (ℤ × Option RespChannel) := do
  let subscriptionId ← getSubscriptionId unsubResp
  match t.firstEntry (fun entry => entry.subscriptionId = subscriptionId) with
  | some j =>
      some ((t.grpcRoutingDataList j).clientId, (t.grpcRoutingDataList j).grpcRespChannel)
  | none => some (-1, none)

/-- An id outside the list panics. -/
def resetClientId (t : Tables) (clientId : ℤ) : Outcome :=
  if h : 0 ≤ clientId ∧ clientId < maxGrpcClients then
    ⟨t.markIndex ⟨clientId.toNat, by omega⟩ false, [.resetClientId clientId], .running⟩
  else ⟨t, [.resetClientId clientId], .panicked⟩

/-- The new entry of a call, in the first free place; the subscription id of the place
stays. -/
def setGrpcRoutingData (t : Tables) (clientId : ℤ) (grpcRespChan : RespChannel)
    (isMultipleEvent : Bool) : Outcome :=
  match t.firstEntry (fun entry => entry.clientId = -1) with
  | some j =>
      let entry := { t.grpcRoutingDataList j with
        clientId
        grpcRespChannel := some grpcRespChan
        isMultipleEvents := isMultipleEvent }
      ⟨t.setEntry j entry, [.setGrpcRoutingData clientId grpcRespChan], .running⟩
  | none => ⟨t, [], .running⟩

/-- Only the client id of the entry is reset. -/
def GrpcRoutingData.reset (entry : GrpcRoutingData) : GrpcRoutingData :=
  { entry with clientId := -1 }

def resetGrpcRoutingData (t : Tables) (clientId : ℤ) : Outcome :=
  match t.firstEntry (fun entry => entry.clientId = clientId) with
  | some j => resetClientId (t.setEntry j (t.grpcRoutingDataList j).reset) clientId
  | none => ⟨t, [], .running⟩

/-! ## Messages of the core -/

/-- A message for the client id is sent to a channel. -/
def sendTo (clientId : ℤ) (grpcRespChan : Option RespChannel) (message : GoString) (t : Tables) :
    Outcome :=
  match grpcRespChan with
  | some channel => ⟨t, [.send clientId channel message], .running⟩
  | none => ⟨t, [], .blocked⟩

/-- The stream of a subscription and the call that unsubscribed it are taken out. -/
def endStream (t : Tables) (subscribeClientId : ℤ) (subscribeChan : Option RespChannel)
    (clientId : ℤ) : Outcome :=
  ((resetGrpcRoutingData t subscribeClientId).andThen
    (sendTo subscribeClientId subscribeChan killMessage)).andThen
      fun t => resetGrpcRoutingData t clientId

def updateRoutingList (t : Tables) (resp : GoString) (clientId : ℤ) (isMultipleEvent : Bool) :
    Outcome :=
  if !isMultipleEvent then resetGrpcRoutingData t clientId
  else if contains resp (str "unsubscribe") then
    match getSubscribeRoutingData t resp with
    | none => ⟨t, [], .panicked⟩
    | some (subscribeClientId, subscribeChan) =>
        endStream t subscribeClientId subscribeChan clientId
  else if contains resp (str "subscribe") then
    if !contains resp (str "subscriptionId") then resetGrpcRoutingData t clientId
    else
      match getSubscriptionId resp with
      | none => ⟨t, [], .panicked⟩
      | some subscriptionId => ⟨updateGrpcRoutingData t clientId subscriptionId, [], .running⟩
  else ⟨t, [], .running⟩

/-- A response for a client id without a channel is only logged. -/
def removeRoutingForwardResponse (t : Tables) (response : GoString) : Outcome :=
  match removeInternalData response with
  | none => ⟨t, [], .panicked⟩
  | some (trimmedResponse, clientId) =>
      match getGrpcRoutingData t clientId with
      | (none, _) => ⟨t, [], .running⟩
      | (some grpcRespChan, isMultipleEvent) =>
          (updateRoutingList t response clientId isMultipleEvent).andThen
            (sendTo clientId (some grpcRespChan) trimmedResponse)

/-! ## Calls -/

/-- Whether more than one message is sent for the request, judged by its text. -/
def isMultipleEvents (vssReq : GoString) : Bool :=
  !contains vssReq (str "unsubscribe") && contains vssReq (str "subscribe")

def maxSessionsResponse : GoString :=
  str "\x7b\"action\": \"get\",\"requestId\": \"9999\",\"error\": \x7b\"number\": \"404\", " ++
    str "\"reason\": \"max_client_sessions\", \"message\": " ++
    str "\"Max no of gRPC client sessions reached.\"\x7d,\"ts\": \"2000-01-01T13:37:00Z\"\x7d"

/-- The branch of GrpcMgrInit for a request that came with a channel. -/
def serveCall (mgrId : ℤ) (t : Tables) (vssReq : GoString) (channel : RespChannel) : Outcome :=
  match getClientId t with
  | some (clientId, t) =>
      (setGrpcRoutingData t clientId.val channel (isMultipleEvents vssReq)).andThen fun t =>
        ⟨t, [.forward (addRoutingForwardRequest vssReq mgrId clientId.val)], .running⟩
  | none => ⟨t, [.refuse channel maxSessionsResponse], .running⟩

/-! ## The machine -/

/-- The tables, the number of channels that handlers made so far, and whether the loop
goes on. -/
structure State where
  tables : Tables
  channels : ℕ
  status : Status

def initialTables : Tables where
  grpcClientIndexList _ := false
  grpcRoutingDataList _ := ⟨-1, [], none, false⟩

def initialState : State := ⟨initialTables, 0, .running⟩

inductive Event
  | call (call : Call)
  | response (respMessage : GoString)

/-- A handler that panics ends the process, and with it the manager. -/
def serve (mgrId : ℤ) (s : State) : Event → Outcome
  | .call call =>
      match call.vssReq with
      | none => ⟨s.tables, [], .panicked⟩
      | some vssReq => serveCall mgrId s.tables vssReq ⟨s.channels, call⟩
  | .response respMessage => removeRoutingForwardResponse s.tables respMessage

/-- The number of channels after an event. -/
def Event.channels (n : ℕ) : Event → ℕ
  | .call _ => n + 1
  | .response _ => n

def step (mgrId : ℤ) (s : State) (e : Event) : Option (State × List Effect) :=
  if s.status = .running then
    let o := serve mgrId s e
    some (⟨o.tables, e.channels s.channels, o.status⟩, o.effects)
  else none

abbrev Move := Runs.Move State Event (List Effect)

abbrev History := Runs.History State Event (List Effect)

abbrev Run (mgrId : ℤ) : History → State → Prop := Runs.Run (step mgrId) (· = initialState)

end VissServer.GrpcMgr
