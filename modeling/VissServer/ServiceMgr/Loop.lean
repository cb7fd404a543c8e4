import VissServer.Library.Runs
import VissServer.ServiceMgr.Requests

/-!
The loop of ServiceMgrInit with the goroutine initDataServer that hands it the requests
(serviceMgr.go). A pass of the loop is one step. threadsChan is never made, so that its
arm never receives and every curveLoggingServer waits at it for ever.
-/
namespace VissServer.ServiceMgr

open Go Utils Runs

/-- What the select of the loop receives, and a capture session that a curveLoggingServer
starts. -/
inductive Event
  | request (request : GoString)
  | dummyTick
  | interval (subscriptionId : ℤ)
  | clPack (subscriptionId : ℤ) (dataPack : GoString)
  | subscriptTick
  | capture
  deriving DecidableEq

def subscriptionMapOf (m : Moment) (e : SubscriptionState) : GoMap Json := GoMap.ofMembers
  [(str "action", .str (str "subscription")), (str "ts", .str m.rfcTime),
    (str "subscriptionId", .str (itoa e.subscriptionId)), (str "RouterId", .str e.routerId)]

def notification (m : Moment) (e : SubscriptionState) (dataPack : GoString) :
    MayPanic GoString :=
  addPackage (finalizeMessage (subscriptionMapOf m e)) (str "data") dataPack

/-- The entry of an interval tick; an id that is not in the list panics. -/
def intervalNotification (cfg : Config) (m : Moment) (s : State) (subscriptionId : ℤ) :
    MayPanic (State × List GoString) := do
  let index ← getSubcriptionStateIndex subscriptionId s.subscriptionList
  let e ← s.subscriptionList[index]?
  let message ← notification m e (← getDataPack cfg m e.path [])
  some (s, [message])

/-- The thread count after a curve logging pack. -/
def countPack (s : State) (index : ℕ) : State :=
  { s with subscriptionList := s.subscriptionList.modify index fun e =>
      { e with subscriptionThreads := e.subscriptionThreads - 1 } }

/-- The entry at the index of the pack is notified, also where the removal has put another
one there. -/
def curveLoggingNotification (m : Moment) (s : State) (subscriptionId : ℤ)
    (dataPack : GoString) : MayPanic (State × List GoString) := do
  let index ← getSubcriptionStateIndex subscriptionId s.subscriptionList
  let s := countPack s index
  let e ← s.subscriptionList[index]?
  let s :=
    if subscriptionId = s.closeClSubId ∧ e.subscriptionThreads = 0 then
      { s with
        subscriptionList := removeFromsubscriptionList s.subscriptionList index
        closeClSubId := -1 }
    else s
  let e ← s.subscriptionList[index]?
  let message ← notification m e dataPack
  some (s, [message])

/-- One entry of the scan for range and change notifications. -/
def checkEntry (cfg : Config) (m : Moment) (e : SubscriptionState) :
    MayPanic (SubscriptionState × List GoString) := do
  let path ← e.path.head?
  let (doTrigger, updateLatest, triggerDataPoint) :=
    checkRangeChangeFilter m e.filterList e.latestDataPoint path
  let latestDataPoint :=
    if updateLatest ∨ doTrigger then triggerDataPoint else e.latestDataPoint
  if doTrigger then do
    let message ← notification m e (← getDataPack cfg m e.path [])
    some ({ e with latestDataPoint }, [message])
  else some ({ e with latestDataPoint }, [])

def checkEntries (cfg : Config) (m : Moment) :
    List SubscriptionState → MayPanic (List SubscriptionState × List GoString)
  | [] => some ([], [])
  | e :: entries => do
      let (e, messages) ← checkEntry cfg m e
      let (entries, rest) ← checkEntries cfg m entries
      some (e :: entries, messages ++ rest)

/-- The state after a pass of the loop that takes no request, and the notifications that it
sends. -/
def handleTrigger (cfg : Config) (m : Moment) (s : State) :
    Event → MayPanic (State × List GoString)
  | .request _ => none
  | .dummyTick =>
      let dummyValue := if s.dummyValue + 1 > 999 then 0 else s.dummyValue + 1
      some ({ s with dummyValue }, [])
  | .interval subscriptionId => intervalNotification cfg m s subscriptionId
  | .clPack subscriptionId dataPack => curveLoggingNotification m s subscriptionId dataPack
  | .subscriptTick => do
      let (subscriptionList, messages) ← checkEntries cfg m s.subscriptionList
      some ({ s with subscriptionList }, messages)
  | .capture =>
      if s.curveLoggingServers ≠ [] ∧ s.numOfClSessions ≤ MAXCLSESSIONS then
        some ({ s with numOfClSessions := s.numOfClSessions + 1 }, [])
      else some (s, [])

/-- How the loop and initDataServer go on: both at their selects, initDataServer waiting
for an answer that was not sent, the loop waiting for its message to be taken, the process
ended, or the loop caught in a handler. -/
inductive Status
  | running
  | unanswered
  | blocked
  | panicked
  | hanging
  deriving DecidableEq

structure Service where
  mgr : State
  status : Status

structure Output where
  answers : List GoString
  notifications : List GoString

/-- initDataServer takes a response to the request from the data channel. -/
def awaitsResponse (request : GoString) : Bool :=
  ¬ contains request (str "internal-killsubscriptions")

/-- Where initDataServer and the loop get to after the answers of a request. -/
def statusAfter (request : GoString) (answers : List GoString) : Status :=
  match awaitsResponse request, answers.length with
  | true, 0 => .unanswered
  | true, 1 => .running
  | false, 0 => .running
  | _, _ => .blocked

def requestStep (cfg : Config) (m : Moment) (s : State) (request : GoString) :
    Service × Output :=
  let handled := handleRequest cfg m s request
  match handled.ending with
  | .back s' => (⟨s', statusAfter request handled.answers⟩, ⟨handled.answers, []⟩)
  | .panic => (⟨s, .panicked⟩, ⟨handled.answers, []⟩)
  | .hang => (⟨s, .hanging⟩, ⟨handled.answers, []⟩)

/-- A notification is not taken while initDataServer waits for an answer. -/
def triggerStep (cfg : Config) (m : Moment) (x : Service) (e : Event) : Service × Output :=
  match handleTrigger cfg m x.mgr e with
  | none => (⟨x.mgr, .panicked⟩, ⟨[], []⟩)
  | some (s, messages) =>
      (⟨s, if messages = [] ∨ x.status = .running then x.status else .blocked⟩, ⟨[], messages⟩)

/-- A pass of the loop. Requests come while both goroutines are at their selects; the other
arms also fire while initDataServer waits for an answer. Without a dummyTicker the first
select panics. -/
def serviceStep (cfg : Config) (x : Service) : Moment × Event → Option (Service × Output)
  | (m, .request request) =>
      if cfg.stateDbNone ∨ x.status ≠ .running then none
      else some (requestStep cfg m x.mgr request)
  | (m, e) =>
      if cfg.stateDbNone ∨ (x.status ≠ .running ∧ x.status ≠ .unanswered) then none
      else some (triggerStep cfg m x e)

/-- The service manager enters its loop. -/
def Started (x : Service) : Prop := x = ⟨initialState, .running⟩

abbrev ServiceHistory := History Service (Moment × Event) Output

abbrev ServiceRun (cfg : Config) (h : ServiceHistory) (x : Service) : Prop :=
  Run (serviceStep cfg) Started h x

/-- A run of the service manager, given by what its selects receive and a property of its
history. -/
theorem exists_serviceRun (cfg : Config) (es : List (Moment × Event)) (p : ServiceHistory → Prop)
    (hes : ∃ r ∈ replay (serviceStep cfg) [] ⟨initialState, .running⟩ es, p r.1) :
    ∃ h x, ServiceRun cfg h x ∧ p h :=
  exists_run_of_replay es p rfl hes

def sampleConfig : Config where
  stateDbNone := false
  historySupport := false

/-- A storage that holds one value for every path. -/
def sampleMoment : Moment where
  rfcTime := str "2024-05-01T08:00:00Z"
  range := id
  range_perm := GoMap.perm_id
  vehicleData _ := str "\x7b\"value\":\"50\", \"ts\":\"2024-05-01T07:59:59Z\"\x7d"
  setVehicleData _ _ := some (str "2024-05-01T08:00:00Z")
  history _ := some []
  isFloatType _ := false
  compareFloats _ _ _ _ := false

end VissServer.ServiceMgr
