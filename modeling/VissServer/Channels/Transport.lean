import VissServer.Library.Runs
import VissServer.Managers.Routing

/-!
The goroutines of a transport manager and transportDataSession, which send to each other on
one unbuffered channel (vissv2server.go, httpMgr.go, wsMgr.go, mqttMgr.go, grpcMgr.go). What
the core and the clients do is not restricted.
-/
namespace VissServer.Channels.Transport

open Go Managers Runs

inductive Manager
  | http
  | ws
  | mqtt
  | grpc
  deriving DecidableEq

def Manager.id : Manager → ℤ
  | .http => 0
  | .ws => 1
  | .mqtt => 2
  | .grpc => 3

/-- Where the hub is. The MQTT hub starts with a request of its own for the vehicle
identification. -/
inductive Hub
  | select
  | asking (vinRequest : GoString)
  | awaitingVin
  | sending (request : GoString)
  | delivering (message : GoString) (clientId : ℤ)
  deriving DecidableEq

/-- Where vissV2Receiver of the MQTT manager is; the flag tells that the message it holds
was sent by the hub. -/
inductive Receiver
  | absent
  | ready
  | holding (message : GoString) (own : Bool)
  deriving DecidableEq

/-- Where transportDataSession is. -/
inductive Session
  | select
  | toCore (request : GoString)
  | toHub (message : GoString)
  deriving DecidableEq

structure Network where
  hub : Hub
  receiver : Receiver
  session : Session
  topicId : ℤ
  ended : Bool
  deriving DecidableEq

/-- The request of getVissV2Topic. -/
def vinRequest : GoString :=
  str "\x7b\"RouterId\":\"" ++ itoa Manager.mqtt.id ++
    str "?0\", \"action\":\"get\", \n\t\"path\":\"Vehicle.VehicleIdentification.VIN\", " ++
    str "\"requestId\":\"570415\", \"origin\":\"internal\"\x7d"

def initialNetwork (manager : Manager) : Network where
  hub := if manager = .mqtt then .asking vinRequest else .select
  receiver := .absent
  session := .select
  topicId := 0
  ended := false

/-- The steps of the network. -/
inductive Event
  /-- The hub takes a message of a client. The client id is the index of the websocket
  channel, or what getClientId of the gRPC manager returns. -/
  | client (clientId : ℤ) (reqMessage : GoString)
  /-- transportDataSession takes the request of the hub. -/
  | take
  /-- The core takes the request of transportDataSession. -/
  | core
  /-- transportDataSession takes a response or a notification. -/
  | backend (message : GoString)
  /-- The hub takes the message of transportDataSession. -/
  | takeBack
  /-- vissV2Receiver takes the message of transportDataSession. -/
  | receive
  /-- vissV2Receiver takes the request of the hub. -/
  | echo
  /-- The hub takes the message of vissV2Receiver. -/
  | pass
  /-- The message of the hub reaches its client. -/
  | deliver
  deriving DecidableEq

/-- The request that the hub makes of a message of a client; none where the gRPC manager has
no client id left. -/
def forwarded (manager : Manager) (topicId clientId : ℤ) (reqMessage : GoString) :
    MayPanic (Option GoString) :=
  match manager with
  | .http => some (some (addRoutingForwardRequest reqMessage manager.id 0))
  | .ws => some (some (addRoutingForwardRequest reqMessage manager.id clientId))
  | .mqtt => (decomposeMqttPayload reqMessage).map fun r =>
      some (addRoutingInfoAndForward r.2 manager.id topicId)
  | .grpc =>
      if clientId = -1 then some none
      else some (some (addRoutingForwardRequest reqMessage manager.id clientId))

def maxClientsResponse : GoString := str (
  "\x7b\"action\": \"get\",\"requestId\": \"9999\",\"error\": \x7b\"number\": \"404\", " ++
  "\"reason\": \"max_client_sessions\", \"message\": " ++
  "\"Max no of gRPC client sessions reached.\"\x7d,\"ts\": \"2000-01-01T13:37:00Z\"\x7d")

def clientMessage (manager : Manager) (x : Network) (clientId : ℤ) (reqMessage : GoString) :
    Network :=
  match forwarded manager x.topicId clientId reqMessage with
  | none => { x with ended := true }
  | some none => { x with hub := .delivering maxClientsResponse clientId }
  | some (some request) =>
      { x with
        hub := .sending request
        topicId := if manager = .mqtt then x.topicId + 1 else x.topicId }

/-- The hub with a message from the core on its way to a client. -/
def forwardResponse (x : Network) (message : GoString) : Network :=
  match removeInternalData message with
  | none => { x with ended := true }
  | some (trimmedResponse, clientId) => { x with hub := .delivering trimmedResponse clientId }

/-- The end of getVissV2Topic, after which vissV2Receiver is started; a response without a
value ends the process. -/
def takeVin (x : Network) (response : GoString) : Network :=
  if index response (str "value") = -1 then { x with ended := true }
  else { x with hub := .select, receiver := .ready }

/-- A step, possible where both sides of a channel are at it. The MQTT hub leaves the
channel to vissV2Receiver. -/
def meet (manager : Manager) (e : Event) (x : Network) : Option Network :=
  match e, x.hub, x.session, x.receiver with
  | .client clientId reqMessage, .select, _, _ =>
      some (clientMessage manager x clientId reqMessage)
  | .take, .asking request, .select, _ =>
      some { x with hub := .awaitingVin, session := .toCore request }
  | .take, .sending request, .select, _ =>
      some { x with hub := .select, session := .toCore request }
  | .core, _, .toCore _, _ => some { x with session := .select }
  | .backend message, _, .select, _ => some { x with session := .toHub message }
  | .takeBack, .select, .toHub message, .absent =>
      some (forwardResponse { x with session := .select } message)
  | .takeBack, .awaitingVin, .toHub message, _ =>
      some (takeVin { x with session := .select } message)
  | .receive, _, .toHub message, .ready =>
      some { x with session := .select, receiver := .holding message false }
  | .echo, .sending request, _, .ready =>
      some { x with hub := .select, receiver := .holding request true }
  | .pass, .select, _, .holding message _ =>
      some (forwardResponse { x with receiver := .ready } message)
  | .deliver, .delivering _ _, _, _ => some { x with hub := .select }
  | _, _, _, _ => none

/-- The message that a step hands over to a client. -/
def delivered (x : Network) : Event → Option (GoString × ℤ)
  | .deliver =>
      match x.hub with
      | .delivering message clientId => some (message, clientId)
      | _ => none
  | _ => none

def networkStep (manager : Manager) (x : Network) (e : Event) :
    Option (Network × Option (GoString × ℤ)) :=
  if x.ended then none else (meet manager e x).map fun x' => (x', delivered x e)

def Started (manager : Manager) (x : Network) : Prop := x = initialNetwork manager

abbrev NetworkHistory := History Network Event (Option (GoString × ℤ))

abbrev NetworkRun (manager : Manager) (h : NetworkHistory) (x : Network) : Prop :=
  Run (networkStep manager) (Started manager) h x

/-- A run, given by its events and a property of its history. -/
theorem exists_networkRun (manager : Manager) (es : List Event) (p : NetworkHistory → Prop)
    (hes : ∃ r ∈ replay (networkStep manager) [] (initialNetwork manager) es, p r.1) :
    ∃ h x, NetworkRun manager h x ∧ p h := exists_run_of_replay es p rfl hes

def Hub.sends : Hub → Bool
  | .asking _ | .sending _ => true
  | _ => false

def Hub.starts : Hub → Bool
  | .asking _ | .awaitingVin => true
  | _ => false

def Session.returns : Session → Bool
  | .toHub _ => true
  | _ => false

def Receiver.holdsOwn : Receiver → Bool
  | .holding _ own => own
  | _ => false

/-- The hub and transportDataSession send to each other, and nobody takes from them. -/
def Jammed (x : Network) : Prop := x.hub.sends ∧ x.session.returns ∧ x.receiver ≠ .ready
  deriving Decidable

/-- The manager has received a message of its hub. -/
def Echoed (x : Network) : Prop := x.receiver.holdsOwn
  deriving Decidable

def Violated (x : Network) : Prop := Jammed x ∨ Echoed x
  deriving Decidable

/-- The hub makes a request of the message. -/
def forwards (manager : Manager) (x : Network) (clientId : ℤ) (reqMessage : GoString) : Bool :=
  match forwarded manager x.topicId clientId reqMessage with
  | some (some _) => true
  | _ => false

/-- Neither side starts to send while the other one does, and vissV2Receiver leaves the
requests of the hub alone. -/
def GivesWay (manager : Manager) (x : Network) : Event → Prop
  | .client clientId reqMessage =>
      forwards manager x clientId reqMessage → ¬ x.session.returns ∨ x.receiver = .ready
  | .backend _ => ¬ x.hub.sends ∨ x.receiver = .ready
  | .echo => False
  | .take => True
  | .core => True
  | .takeBack => True
  | .receive => True
  | .pass => True
  | .deliver => True

instance (manager : Manager) (x : Network) : ∀ e, Decidable (GivesWay manager x e)
  | .client clientId reqMessage => inferInstanceAs (Decidable
      (forwards manager x clientId reqMessage → ¬ x.session.returns ∨ x.receiver = .ready))
  | .backend _ => inferInstanceAs (Decidable (¬ x.hub.sends ∨ x.receiver = .ready))
  | .echo => inferInstanceAs (Decidable False)
  | .take | .core | .takeBack | .receive | .pass | .deliver =>
      inferInstanceAs (Decidable True)

section

variable {manager : Manager} {x x' : Network}

theorem forwardResponse_goroutines (x : Network) (message : GoString) (hhub : x.hub = .select) :
    (forwardResponse x message).hub.sends = false ∧
      (forwardResponse x message).session = x.session ∧
      (forwardResponse x message).receiver = x.receiver := by
  unfold forwardResponse
  cases removeInternalData message with
  | none => exact ⟨by rw [hhub]; rfl, rfl, rfl⟩
  | some r => exact ⟨rfl, rfl, rfl⟩

theorem takeVin_goroutines (x : Network) (response : GoString) (hhub : x.hub = .awaitingVin) :
    (takeVin x response).hub.sends = false ∧
      ((takeVin x response).receiver = x.receiver ∨ (takeVin x response).receiver = .ready) := by
  unfold takeVin
  split
  · exact ⟨by rw [hhub]; rfl, .inl rfl⟩
  · exact ⟨rfl, .inr rfl⟩

theorem clientMessage_goroutines (manager : Manager) (clientId : ℤ) (reqMessage : GoString)
    (hhub : x.hub = .select) :
    (clientMessage manager x clientId reqMessage).hub.sends =
        forwards manager x clientId reqMessage ∧
      (clientMessage manager x clientId reqMessage).session = x.session ∧
      (clientMessage manager x clientId reqMessage).receiver = x.receiver := by
  unfold clientMessage forwards
  cases forwarded manager x.topicId clientId reqMessage with
  | none => exact ⟨by rw [hhub]; rfl, rfl, rfl⟩
  | some r => cases r <;> exact ⟨rfl, rfl, rfl⟩

/-- A step keeps both sides going and leaves the manager without messages of its own, if and
only if both sides give way. -/
theorem meet_violated_iff {e : Event} (hechoed : ¬ Echoed x) (h : meet manager e x = some x') :
    ¬ Violated x' ↔ GivesWay manager x e := by
  rw [Violated, not_or]
  unfold meet at h
  split at h
  · next clientId reqMessage hhub =>
    obtain rfl := Option.some.inj h
    obtain ⟨hsends, hsession, hreceiver⟩ :=
      clientMessage_goroutines manager clientId reqMessage hhub
    have hkept : Echoed (clientMessage manager x clientId reqMessage) ↔ Echoed x := by
      rw [Echoed, Echoed, hreceiver]
    rw [and_iff_left (hkept.not.mpr hechoed), Jammed, hsends, hsession, hreceiver, GivesWay]
    simp only [not_and, not_not, imp_iff_not_or]
  · next request hhub hsession =>
    obtain rfl := Option.some.inj h
    exact iff_of_true ⟨by simp [Jammed, Hub.sends], hechoed⟩ trivial
  · next request hhub hsession =>
    obtain rfl := Option.some.inj h
    exact iff_of_true ⟨by simp [Jammed, Hub.sends], hechoed⟩ trivial
  · next request hsession =>
    obtain rfl := Option.some.inj h
    exact iff_of_true ⟨by simp [Jammed, Session.returns], hechoed⟩ trivial
  · next message hsession =>
    obtain rfl := Option.some.inj h
    have hkept : Echoed { x with session := .toHub message } ↔ Echoed x := Iff.rfl
    rw [and_iff_left (hkept.not.mpr hechoed), Jammed, GivesWay]
    simp [Session.returns, imp_iff_not_or]
  · next message hhub hsession hreceiver =>
    obtain rfl := Option.some.inj h
    obtain ⟨hsends, -, hsame⟩ :=
      forwardResponse_goroutines { x with session := .select } message hhub
    exact iff_of_true ⟨by simp [Jammed, hsends], by rwa [Echoed, hsame]⟩ trivial
  · next message hhub hsession =>
    obtain rfl := Option.some.inj h
    obtain ⟨hsends, hsame⟩ := takeVin_goroutines { x with session := .select } message hhub
    refine iff_of_true ⟨by simp [Jammed, hsends], ?_⟩ trivial
    rcases hsame with hsame | hready
    · rwa [Echoed, hsame]
    · simp [Echoed, hready, Receiver.holdsOwn]
  · next message hsession hreceiver =>
    obtain rfl := Option.some.inj h
    exact iff_of_true
      ⟨by simp [Jammed, Session.returns], by simp [Echoed, Receiver.holdsOwn]⟩ trivial
  · next request hhub hreceiver =>
    obtain rfl := Option.some.inj h
    exact iff_of_false (fun hboth => hboth.2 rfl) id
  · next message own hhub hreceiver =>
    obtain rfl := Option.some.inj h
    obtain ⟨hsends, -, hsame⟩ :=
      forwardResponse_goroutines { x with receiver := .ready } message hhub
    exact iff_of_true
      ⟨by simp [Jammed, hsends], by simp [Echoed, hsame, Receiver.holdsOwn]⟩ trivial
  · next message clientId hhub =>
    obtain rfl := Option.some.inj h
    exact iff_of_true ⟨by simp [Jammed, Hub.sends], hechoed⟩ trivial
  · simp at h

/-- What the MQTT manager has besides the others: its start, and the second receiver. -/
def Plain (x : Network) : Prop := x.hub.starts = false ∧ x.receiver = .absent

theorem meet_of_networkStep {e : Event} {o : Option (GoString × ℤ)}
    (h : networkStep manager x e = some (x', o)) : meet manager e x = some x' := by
  unfold networkStep at h
  split at h
  · simp at h
  · obtain ⟨x₁, hmeet, heq⟩ := Option.map_eq_some_iff.mp h
    obtain ⟨rfl, -⟩ := Prod.mk.inj heq
    exact hmeet

end

/-- A get request and the response to it, as the core sends it. -/
def getRequest : GoString := str "\x7b\"action\":\"get\",\"path\":\"Vehicle.Speed\"\x7d"

def getResponse (manager : Manager) : GoString :=
  str "\x7b\"RouterId\":\"" ++ routerId manager.id 0 ++ str "\",\"action\":\"get\"\x7d"

def vinResponse : GoString := str "\x7b\"value\":\"VIN1\"\x7d"

def mqttPayload : GoString :=
  str "\x7b\"topic\":\"Client\",\"request\":" ++ getRequest ++ str "\x7d"

/-- A second client sends its request while the response to the first one is on its way; the
request to the MQTT manager comes back to it. -/
theorem reaches_violated (manager : Manager) : ∃ h x, NetworkRun manager h x ∧
    ∃ y ∈ h.head?, Violated y.after := by
  cases manager with
  | mqtt =>
    exact exists_networkRun .mqtt
      [.take, .core, .backend vinResponse, .takeBack, .client 0 mqttPayload, .echo]
      _ (by decide +kernel)
  | _ =>
    exact exists_networkRun _
      [.client 0 getRequest, .take, .core, .backend (getResponse .ws), .client 1 getRequest]
      _ (by decide +kernel)

end VissServer.Channels.Transport
