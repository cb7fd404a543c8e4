import VissServer.Core.Requests
import VissServer.Managers.Routing
import VissServer.ServiceMgr.Invariants

/-!
The core with the service manager behind it (vissv2server.go, serviceMgr.go). A message of
a client is served to its end before the next one; the channels between the core and the
service manager keep the order of the requests.
-/
namespace VissServer.Core

open Go Utils Runs

/-- A client of the transport manager with the index mgrId: HTTP, websocket, MQTT, gRPC. -/
structure Session where
  mgrId : Fin 4
  clientId : ℤ
  deriving DecidableEq

/-- The text that the transport manager sends to the core for a message of the client. -/
def Session.forward (session : Session) (reqMessage : GoString) : GoString :=
  if session.mgrId = 2 then
    Managers.addRoutingInfoAndForward reqMessage session.mgrId.val session.clientId
  else Managers.addRoutingForwardRequest reqMessage session.mgrId.val session.clientId

def initialErrorResponseMap : GoMap Json := GoMap.ofMembers
  [(str "RouterId", .num (str "0")), (str "action", .str (str "unknown")),
    (str "requestId", .str (str "XXX")),
    (str "error", .str (str
      "\x7b\"number\":AAA, \"reason\": \"BBB\", \"message\": \"CCC\"\x7d")),
    (str "ts", .num (str "1234"))]

structure System where
  errorResponseMap : GoMap Json
  service : ServiceMgr.Service

def initialSystem : System where
  errorResponseMap := initialErrorResponseMap
  service := ⟨ServiceMgr.initialState, .running⟩

/-- A message of a client, a gating id from the access token server, and what the loop of
the service manager receives besides requests. -/
inductive Event
  | client (session : Session) (reqMessage : GoString)
  | gatingId (gatingId : GoString)
  | trigger (e : ServiceMgr.Event)
  deriving DecidableEq

structure Moments where
  core : Moment
  service : ServiceMgr.Moment

structure Configs where
  core : Config
  service : ServiceMgr.Config

/-- The request that the main loop makes of a gating id. -/
def cancelRequest (gatingId : GoString) : GoString :=
  str "\x7b\"action\": \"internal-cancelsubscription\", \"gatingId\":\"" ++ gatingId ++
    str "\"\x7d"

/-- A request is handed on while the service manager takes requests. A panic ends the
process, and with it the service manager. -/
def serveStep (cfg : Configs) (m : Moments) (x : System) (request : GoString) :
    Option (System × List GoString) :=
  if x.service.status = .panicked then none
  else
    match serveRequest cfg.core m.core request with
    | none => some ({ x with service := { x.service with status := .panicked } }, [])
    | some (.error requestMap errorListIndex altErrorMessage) =>
        let errorResponseMap := setErrorResponse m.core.rfcTime requestMap x.errorResponseMap
          errorListIndex altErrorMessage
        some ({ x with errorResponseMap }, [finalizeMessage errorResponseMap])
    | some (.response message) => some (x, [message])
    | some (.service message) =>
        (ServiceMgr.serviceStep cfg.service x.service (m.service, .request message)).map
          fun r => ({ x with service := r.1 }, r.2.answers)

/-- The messages that a step sends towards the transport managers are its output. -/
def systemStep (cfg : Configs) (x : System) : Moments × Event → Option (System × List GoString)
  | (m, .client session reqMessage) => serveStep cfg m x (session.forward reqMessage)
  | (m, .gatingId gatingId) => serveStep cfg m x (cancelRequest gatingId)
  | (_, .trigger (.request _)) => none
  | (m, .trigger e) =>
      (ServiceMgr.serviceStep cfg.service x.service (m.service, e)).map
        fun r => ({ x with service := r.1 }, r.2.notifications)

def Started (x : System) : Prop := x = initialSystem

abbrev SystemMove := Move System (Moments × Event) (List GoString)

abbrev SystemHistory := History System (Moments × Event) (List GoString)

abbrev SystemRun (cfg : Configs) (h : SystemHistory) (x : System) : Prop :=
  Run (systemStep cfg) Started h x

/-- A run, given by its events and a property of its history. -/
theorem exists_systemRun (cfg : Configs) (es : List (Moments × Event))
    (p : SystemHistory → Prop)
    (hes : ∃ r ∈ replay (systemStep cfg) [] initialSystem es, p r.1) :
    ∃ h x, SystemRun cfg h x ∧ p h := exists_run_of_replay es p rfl hes

/-- The session whose request made a subscription with the id. -/
def creator : SystemHistory → ℤ → Option Session
  | [], _ => none
  | y :: h, id =>
      match y.event.2 with
      | .client session _ =>
          if y.before.service.mgr.subscriptionId ≤ id ∧ id < y.after.service.mgr.subscriptionId
          then some session
          else creator h id
      | _ => creator h id

section

variable {cfg : Configs} {m : Moments} {x x' : System} {request : GoString}
  {output : List GoString}

/-- What serving a request does to the service manager. -/
theorem serveStep_service (h : serveStep cfg m x request = some (x', output)) :
    ((∀ message, serveRequest cfg.core m.core request ≠ some (.service message)) ∧
      x'.service.mgr = x.service.mgr ∧
      (x'.service.status = x.service.status ∨ x'.service.status = .panicked)) ∨
    ∃ message o, serveRequest cfg.core m.core request = some (.service message) ∧
      ServiceMgr.serviceStep cfg.service x.service (m.service, .request message) =
        some (x'.service, o) := by
  unfold serveStep at h
  split at h
  · simp at h
  · split at h
    · next hserve =>
      obtain ⟨rfl, -⟩ := Prod.mk.inj (Option.some.inj h)
      exact .inl ⟨by simp [hserve], rfl, .inr rfl⟩
    · next hserve =>
      obtain ⟨rfl, -⟩ := Prod.mk.inj (Option.some.inj h)
      exact .inl ⟨by simp [hserve], rfl, .inl rfl⟩
    · next hserve =>
      obtain ⟨rfl, -⟩ := Prod.mk.inj (Option.some.inj h)
      exact .inl ⟨by simp [hserve], rfl, .inl rfl⟩
    · next message hserve =>
      rw [Option.map_eq_some_iff] at h
      obtain ⟨⟨service, o⟩, hstep, heq⟩ := h
      obtain ⟨rfl, -⟩ := Prod.mk.inj heq
      exact .inr ⟨message, o, hserve, hstep⟩

theorem systemStep_trigger {e : ServiceMgr.Event}
    (h : systemStep cfg x (m, .trigger e) = some (x', output)) :
    (∀ request, e ≠ .request request) ∧ ∃ o, ServiceMgr.serviceStep cfg.service x.service
      (m.service, e) = some (x'.service, o) := by
  cases e with
  | request => simp [systemStep] at h
  | _ =>
    simp only [systemStep, Option.map_eq_some_iff] at h
    obtain ⟨⟨service, o⟩, hstep, heq⟩ := h
    obtain ⟨rfl, -⟩ := Prod.mk.inj heq
    exact ⟨nofun, o, hstep⟩

/-- The service manager keeps its invariants. -/
theorem systemStep_fresh {e : Moments × Event} (hx : ServiceMgr.Fresh x.service.mgr)
    (h : systemStep cfg x e = some (x', output)) : ServiceMgr.Fresh x'.service.mgr := by
  have hservice : ∀ m e o, ServiceMgr.serviceStep cfg.service x.service (m, e) =
      some (x'.service, o) → ServiceMgr.Fresh x'.service.mgr := by
    intro m e o hstep
    rcases ServiceMgr.serviceStep_mgr hstep with heq | ⟨_, -, heffect⟩ | ⟨_, htrigger⟩
    · exact heq ▸ hx
    · exact hx.effect heffect
    · exact hx.trigger htrigger
  have hserve : ∀ m request, serveStep cfg m x request = some (x', output) →
      ServiceMgr.Fresh x'.service.mgr := by
    intro m request hstep
    rcases serveStep_service hstep with ⟨-, hmgr, -⟩ | ⟨message, o, -, hservice'⟩
    · exact hmgr ▸ hx
    · exact hservice _ _ o hservice'
  obtain ⟨m, e⟩ := e
  cases e with
  | client session reqMessage => exact hserve m _ h
  | gatingId gatingId => exact hserve m _ h
  | trigger e =>
    obtain ⟨-, o, hstep⟩ := systemStep_trigger h
    exact hservice _ _ o hstep

end

theorem SystemRun.fresh {cfg : Configs} {h : SystemHistory} {x : System}
    (hrun : SystemRun cfg h x) : ServiceMgr.Fresh x.service.mgr := by
  refine hrun.invariant (I := fun _ x => ServiceMgr.Fresh x.service.mgr) ?_ ?_
  · rintro x rfl
    exact ServiceMgr.fresh_initialState
  · exact fun h y hy hstep => systemStep_fresh hy hstep

end VissServer.Core
