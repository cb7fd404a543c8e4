import VissServer.Managers.Routing
import VissServer.ServiceMgr.Loop

/-!
The goroutines between the core and the service manager, which meet at unbuffered channels:
serviceDataSession, initDataServer and the loop of ServiceMgrInit (vissv2server.go,
serviceMgr.go). A step is one meeting at a channel, or what one of them does on its own.
-/
namespace VissServer.Channels.Service

open Go Managers Runs
open ServiceMgr (State Ending awaitsResponse handleRequest handleTrigger)

/-- Where serviceDataSession is: at its select, or with a message that is not taken yet. -/
inductive Session
  | select
  | toManager (request : GoString)
  | toTransport (mgrIndex : Fin 4) (response : GoString)
  deriving DecidableEq

/-- Where initDataServer is. -/
inductive DataServer
  | select
  | forwarding (request : GoString)
  | awaiting
  | returning (message : GoString)
  deriving DecidableEq

/-- Where the loop is: with the first of the answers to a request, with the first of the
notifications of a trigger, or in a handler that does not end. -/
inductive Loop
  | select
  | answering (answer : GoString) (answers : List GoString) (ending : Ending)
  | notifying (message : GoString) (messages : List GoString)
  | hanging

structure Network where
  session : Session
  dataServer : DataServer
  loop : Loop
  mgr : State
  panicked : Bool

def initialNetwork : Network where
  session := .select
  dataServer := .select
  loop := .select
  mgr := ServiceMgr.initialState
  panicked := false

/-- The steps of the network. -/
inductive Event
  /-- serviceDataSession takes a request from the core. -/
  | request (request : GoString)
  /-- initDataServer takes the request of serviceDataSession. -/
  | handOver
  /-- The loop takes the request of initDataServer. -/
  | take
  /-- initDataServer takes an answer of the loop. -/
  | answer
  /-- The loop takes anything but a request. -/
  | trigger (e : ServiceMgr.Event)
  /-- initDataServer takes a notification of the loop. -/
  | notify
  /-- serviceDataSession takes the message of initDataServer. -/
  | takeBack
  /-- The message of serviceDataSession is taken for its transport manager. -/
  | deliver
  deriving DecidableEq

def Session.sends : Session → Bool
  | .toManager _ => true
  | _ => false

def DataServer.forwards : DataServer → Bool
  | .forwarding _ => true
  | _ => false

def DataServer.returns : DataServer → Bool
  | .returning _ => true
  | _ => false

def Loop.notifies : Loop → Bool
  | .notifying _ _ => true
  | _ => false

/-- The loop behind the last answer to a request. -/
def Network.endRequest (x : Network) : Ending → Network
  | .back mgr => { x with loop := .select, mgr }
  | .panic => { x with loop := .select, panicked := true }
  | .hang => { x with loop := .hanging }

/-- The loop with the answers that are left. -/
def Network.setAnswers (x : Network) (answers : List GoString) (ending : Ending) : Network :=
  match answers with
  | [] => x.endRequest ending
  | answer :: answers => { x with loop := .answering answer answers ending }

def Network.setNotifications (x : Network) (messages : List GoString) : Network :=
  match messages with
  | [] => { x with loop := .select }
  | message :: messages => { x with loop := .notifying message messages }

/-- The index of the backend channel for a message; an index of no channel panics. -/
def backendIndex (response : GoString) : MayPanic (Fin 4) := do
  let mgrIndex ← extractMgrId (← getRouterId response)
  if h : 0 ≤ mgrIndex ∧ mgrIndex < 4 then some ⟨mgrIndex.toNat, by omega⟩ else none

section Steps

variable (cfg : ServiceMgr.Config) (m : ServiceMgr.Moment) (x : Network)

def takeRequest (request : GoString) : Network :=
  let handled := handleRequest cfg m x.mgr request
  let dataServer := if awaitsResponse request then .awaiting else .select
  Network.setAnswers { x with dataServer } handled.answers handled.ending

def takeTrigger (e : ServiceMgr.Event) : Network :=
  match handleTrigger cfg m x.mgr e with
  | none => { x with panicked := true }
  | some (mgr, messages) => Network.setNotifications { x with mgr } messages

def takeMessage (message : GoString) : Network :=
  match backendIndex message with
  | none => { x with session := .select, dataServer := .select, panicked := true }
  | some mgrIndex =>
      { x with session := .toTransport mgrIndex message, dataServer := .select }

/-- A step, possible where both sides of a channel are at it. -/
def meet (e : Event) : Option Network :=
  match e, x.session, x.dataServer, x.loop with
  | .request request, .select, _, _ => some { x with session := .toManager request }
  | .handOver, .toManager request, .select, _ =>
      some { x with session := .select, dataServer := .forwarding request }
  | .take, _, .forwarding request, .select => some (takeRequest cfg m x request)
  | .answer, _, .awaiting, .answering answer answers ending =>
      some (Network.setAnswers { x with dataServer := .returning answer } answers ending)
  | .trigger e, _, _, .select => some (takeTrigger cfg m x e)
  | .notify, _, .select, .notifying message messages =>
      some (Network.setNotifications { x with dataServer := .returning message } messages)
  | .takeBack, .select, .returning message, _ => some (takeMessage x message)
  | .deliver, .toTransport _ _, _, _ => some { x with session := .select }
  | _, _, _, _ => none

end Steps

/-- The message that a step hands over to a transport manager. -/
def delivered (x : Network) : Event → Option (Fin 4 × GoString)
  | .deliver =>
      match x.session with
      | .toTransport mgrIndex response => some (mgrIndex, response)
      | _ => none
  | _ => none

/-- The process ends with a panic, and without a dummyTicker at the first select. -/
def networkStep (cfg : ServiceMgr.Config) (x : Network) (e : ServiceMgr.Moment × Event) :
    Option (Network × Option (Fin 4 × GoString)) :=
  if x.panicked ∨ cfg.stateDbNone then none
  else (meet cfg e.1 x e.2).map fun x' => (x', delivered x e.2)

def Started (x : Network) : Prop := x = initialNetwork

abbrev NetworkHistory :=
  History Network (ServiceMgr.Moment × Event) (Option (Fin 4 × GoString))

abbrev NetworkRun (cfg : ServiceMgr.Config) (h : NetworkHistory) (x : Network) : Prop :=
  Run (networkStep cfg) Started h x

/-- A run, given by its events and a property of its history. -/
theorem exists_networkRun (cfg : ServiceMgr.Config) (es : List (ServiceMgr.Moment × Event))
    (p : NetworkHistory → Prop)
    (hes : ∃ r ∈ replay (networkStep cfg) [] initialNetwork es, p r.1) :
    ∃ h x, NetworkRun cfg h x ∧ p h := exists_run_of_replay es p rfl hes

/-- initDataServer sends a request to the loop, and the loop a notification to it. -/
def Crossed (x : Network) : Prop := x.dataServer.forwards ∧ x.loop.notifies
  deriving Decidable

/-- serviceDataSession and initDataServer send to each other. -/
def Facing (x : Network) : Prop := x.session.sends ∧ x.dataServer.returns
  deriving Decidable

def Jammed (x : Network) : Prop := Crossed x ∨ Facing x
  deriving Decidable

/-- The loop has a notification to send for what it takes. -/
def triggers (cfg : ServiceMgr.Config) (m : ServiceMgr.Moment) (mgr : State)
    (e : ServiceMgr.Event) : Bool :=
  match handleTrigger cfg m mgr e with
  | some (_, _ :: _) => true
  | _ => false

/-- No goroutine starts to send to one that is sending to it. -/
def GivesWay (cfg : ServiceMgr.Config) (x : Network) : ServiceMgr.Moment × Event → Prop
  | (_, .request _) => ¬ x.dataServer.returns
  | (_, .handOver) => ¬ x.loop.notifies
  | (_, .answer) => ¬ x.session.sends
  | (_, .notify) => ¬ x.session.sends
  | (m, .trigger e) => triggers cfg m x.mgr e → ¬ x.dataServer.forwards
  | (_, .take) => True
  | (_, .takeBack) => True
  | (_, .deliver) => True

instance (cfg : ServiceMgr.Config) (x : Network) :
    ∀ e, Decidable (GivesWay cfg x e)
  | (_, .request _) => inferInstanceAs (Decidable (¬ x.dataServer.returns))
  | (_, .handOver) => inferInstanceAs (Decidable (¬ x.loop.notifies))
  | (_, .answer) | (_, .notify) => inferInstanceAs (Decidable (¬ x.session.sends))
  | (m, .trigger e) =>
      inferInstanceAs (Decidable (triggers cfg m x.mgr e → ¬ x.dataServer.forwards))
  | (_, .take) | (_, .takeBack) | (_, .deliver) => inferInstanceAs (Decidable True)

section

variable {cfg : ServiceMgr.Config} {m : ServiceMgr.Moment} {x x' : Network}

@[simp] theorem endRequest_session (x : Network) (ending : Ending) :
    (x.endRequest ending).session = x.session := by
  cases ending <;> rfl

@[simp] theorem endRequest_dataServer (x : Network) (ending : Ending) :
    (x.endRequest ending).dataServer = x.dataServer := by
  cases ending <;> rfl

@[simp] theorem endRequest_notifies (x : Network) (ending : Ending) :
    (x.endRequest ending).loop.notifies = false := by
  cases ending <;> rfl

@[simp] theorem setAnswers_session (x : Network) (answers : List GoString) (ending : Ending) :
    (x.setAnswers answers ending).session = x.session := by
  cases answers with
  | nil => exact endRequest_session x ending
  | cons answer answers => rfl

@[simp] theorem setAnswers_dataServer (x : Network) (answers : List GoString) (ending : Ending) :
    (x.setAnswers answers ending).dataServer = x.dataServer := by
  cases answers with
  | nil => exact endRequest_dataServer x ending
  | cons answer answers => rfl

@[simp] theorem setAnswers_notifies (x : Network) (answers : List GoString) (ending : Ending) :
    (x.setAnswers answers ending).loop.notifies = false := by
  cases answers with
  | nil => exact endRequest_notifies x ending
  | cons answer answers => rfl

@[simp] theorem setNotifications_session (x : Network) (messages : List GoString) :
    (x.setNotifications messages).session = x.session := by
  cases messages <;> rfl

@[simp] theorem setNotifications_dataServer (x : Network) (messages : List GoString) :
    (x.setNotifications messages).dataServer = x.dataServer := by
  cases messages <;> rfl

/-- What a trigger changes: the loop notifies where there is a notification to send. -/
theorem takeTrigger_goroutines (cfg : ServiceMgr.Config) (m : ServiceMgr.Moment)
    (e : ServiceMgr.Event) (hloop : x.loop = .select) :
    (takeTrigger cfg m x e).session = x.session ∧
      (takeTrigger cfg m x e).dataServer = x.dataServer ∧
      (takeTrigger cfg m x e).loop.notifies = triggers cfg m x.mgr e := by
  unfold takeTrigger triggers
  cases htrigger : handleTrigger cfg m x.mgr e with
  | none => exact ⟨rfl, rfl, by rw [hloop]; rfl⟩
  | some r =>
    obtain ⟨mgr, messages⟩ := r
    cases messages <;> exact ⟨rfl, rfl, rfl⟩

theorem takeMessage_goroutines (x : Network) (message : GoString) :
    (takeMessage x message).session.sends = false ∧
      (takeMessage x message).dataServer = .select ∧ (takeMessage x message).loop = x.loop := by
  unfold takeMessage
  cases backendIndex message <;> exact ⟨rfl, rfl, rfl⟩

/-- A step out of a state that is not jammed leads to one that is not, if and only if no
goroutine starts to send to one that is sending to it. -/
theorem meet_jammed_iff {e : Event} (hx : ¬ Jammed x) (h : meet cfg m x e = some x') :
    ¬ Jammed x' ↔ GivesWay cfg x (m, e) := by
  have hcrossed : ¬ Crossed x := fun hcrossed => hx (.inl hcrossed)
  have hfacing : ¬ Facing x := fun hfacing => hx (.inr hfacing)
  unfold meet at h
  split at h
  · next request hsession =>
    obtain rfl := Option.some.inj h
    have hsame : Crossed { x with session := .toManager request } ↔ Crossed x := Iff.rfl
    simp [Jammed, hsame, hcrossed, Facing, GivesWay, Session.sends]
  · next request hsession hdata =>
    obtain rfl := Option.some.inj h
    simp [Jammed, Crossed, Facing, GivesWay, Session.sends, DataServer.forwards]
  · next request hdata hloop =>
    obtain rfl := Option.some.inj h
    have hreturns : (takeRequest cfg m x request).dataServer.returns = false := by
      simp only [takeRequest, setAnswers_dataServer]
      split <;> rfl
    have hnotifies : (takeRequest cfg m x request).loop.notifies = false :=
      setAnswers_notifies _ _ _
    simp [Jammed, Crossed, Facing, GivesWay, hreturns, hnotifies]
  · next answer answers ending hdata hloop =>
    obtain rfl := Option.some.inj h
    simp [Jammed, Crossed, Facing, GivesWay, DataServer.returns]
  · next e hloop =>
    obtain rfl := Option.some.inj h
    obtain ⟨hsession, hdata, hnotifies⟩ := takeTrigger_goroutines cfg m e hloop
    have hsame : Facing (takeTrigger cfg m x e) ↔ Facing x := by
      rw [Facing, Facing, hsession, hdata]
    rw [Jammed, Crossed, hsame, hdata, hnotifies, or_iff_left hfacing, not_and', GivesWay]
  · next message messages hdata hloop =>
    obtain rfl := Option.some.inj h
    simp [Jammed, Crossed, Facing, GivesWay, DataServer.returns, DataServer.forwards]
  · next message hsession hdata =>
    obtain rfl := Option.some.inj h
    obtain ⟨hsends, hselect, -⟩ := takeMessage_goroutines x message
    simp [Jammed, Crossed, Facing, GivesWay, hsends, hselect, DataServer.forwards]
  · next mgrIndex response hsession =>
    obtain rfl := Option.some.inj h
    have hsame : Crossed { x with session := .select } ↔ Crossed x := Iff.rfl
    simp [Jammed, hsame, hcrossed, Facing, GivesWay, Session.sends]
  · simp at h

theorem meet_of_networkStep {e : ServiceMgr.Moment × Event} {o : Option (Fin 4 × GoString)}
    (h : networkStep cfg x e = some (x', o)) : meet cfg e.1 x e.2 = some x' := by
  unfold networkStep at h
  split at h
  · simp at h
  · obtain ⟨x₁, hmeet, heq⟩ := Option.map_eq_some_iff.mp h
    obtain ⟨rfl, -⟩ := Prod.mk.inj heq
    exact hmeet

end

/-- No state of a run is jammed, if and only if in no step a goroutine starts to send to one
that is sending to it. -/
theorem service_side_deadlock_iff {cfg : ServiceMgr.Config} {h : NetworkHistory} {x : Network}
    (hrun : NetworkRun cfg h x) :
    Always (fun _ y => ¬ Jammed y.after) h ↔
      Always (fun _ y => GivesWay cfg y.before y.event) h := by
  refine hrun.avoids_iff (J := fun _ => True) ?_ (fun _ _ _ => trivial) ?_
  · rintro x rfl
    exact ⟨trivial, by decide⟩
  · intro y hy _ hbefore
    exact meet_jammed_iff hbefore (meet_of_networkStep hy)

/-- A get request of a websocket client. -/
def getRequest : GoString :=
  str "\x7b\"RouterId\":\"1?0\",\"action\":\"get\",\"path\":\"Vehicle.Speed\"\x7d"

/-- A subscription of a websocket client to a signal every 500 ms. -/
def subscribeRequest : GoString := str (
  "\x7b\"RouterId\":\"1?0\",\"action\":\"subscribe\",\"path\":\"Vehicle.Speed\"," ++
  "\"filter\":\x7b\"type\":\"timebased\",\"parameter\":\x7b\"period\":\"500\"\x7d\x7d\x7d")

/-- The steps of one request that is answered before anything else happens. -/
def served (request : GoString) : List (ServiceMgr.Moment × Event) :=
  [.request request, .handOver, .take, .answer, .takeBack, .deliver].map
    fun e => (ServiceMgr.sampleMoment, e)

/-- A subscription, a request and a notification, one after the other. -/
theorem service_side_in_turn : ∃ h x, NetworkRun ServiceMgr.sampleConfig h x ∧
    h.length = 15 ∧ Always (fun _ y => ¬ Jammed y.after) h := by
  obtain ⟨h, x, hrun, hlength, hgives⟩ := exists_networkRun ServiceMgr.sampleConfig
    (served subscribeRequest ++ served getRequest ++
      [.trigger (.interval 1), .notify, .takeBack].map fun e => (ServiceMgr.sampleMoment, e))
    (fun h => h.length = 15 ∧
      Always (fun _ y => GivesWay ServiceMgr.sampleConfig y.before y.event) h)
    (by decide +kernel)
  exact ⟨h, x, hrun, hlength, (service_side_deadlock_iff hrun).mpr hgives⟩

/-- A tick of a subscription meets the next request of the client. -/
theorem crossed_by_tick : ∃ h x, NetworkRun ServiceMgr.sampleConfig h x ∧
    ∃ y ∈ h.head?, Crossed y.after :=
  exists_networkRun ServiceMgr.sampleConfig
    (served subscribeRequest ++ [.request getRequest, .handOver, .trigger (.interval 1)].map
      fun e => (ServiceMgr.sampleMoment, e))
    (fun h => ∃ y ∈ h.head?, Crossed y.after) (by decide +kernel)

/-- The answer to one request meets the next request. -/
theorem facing_by_answer : ∃ h x, NetworkRun ServiceMgr.sampleConfig h x ∧
    ∃ y ∈ h.head?, Facing y.after :=
  exists_networkRun ServiceMgr.sampleConfig
    ([.request getRequest, .handOver, .take, .request getRequest, .answer].map
      fun e => (ServiceMgr.sampleMoment, e))
    (fun h => ∃ y ∈ h.head?, Facing y.after) (by decide +kernel)

/-- Both ways of sending to each other are reached. -/
theorem service_side_deadlocks :
    (¬ ∀ cfg h x, NetworkRun cfg h x → Always (fun _ y => ¬ Crossed y.after) h) ∧
      ¬ ∀ cfg h x, NetworkRun cfg h x → Always (fun _ y => ¬ Facing y.after) h := by
  constructor
  · intro hall
    obtain ⟨h, x, hrun, y, hy, hcrossed⟩ := crossed_by_tick
    obtain ⟨rest, rfl⟩ := List.head?_eq_some_iff.mp hy
    exact (hall _ _ _ hrun).1 hcrossed
  · intro hall
    obtain ⟨h, x, hrun, y, hy, hfacing⟩ := facing_by_answer
    obtain ⟨rest, rfl⟩ := List.head?_eq_some_iff.mp hy
    exact (hall _ _ _ hrun).1 hfacing

end VissServer.Channels.Service
