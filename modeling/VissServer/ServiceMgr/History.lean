import Mathlib.Algebra.Group.Int.Defs
import VissServer.ServiceMgr.Loop

/-!
History recording (serviceMgr.go): the control requests of historyServer, whose tickers
share the ticker table with the interval subscriptions, next to the loop of the service
manager. What a recording stores and what a history request reads is left out: neither
reaches a ticker.
-/
namespace VissServer.ServiceMgr

open Go Utils Runs

/-- An element of the slice historyList. -/
structure HistoryList where
  path : GoString
  frequency : ℤ := 0
  bufSize : ℤ := 0
  status : ℤ := 0
  bufIndex : ℤ := 0
  buffer : List GoString := []
  deriving DecidableEq

/-- A time.Ticker with its period in nanoseconds, and the signal id that its goroutine
sends. -/
structure HistoryTicker where
  period : ℤ
  signalId : ℤ
  stopped : Bool := false
  deriving DecidableEq

/-- The state of the loop with that of historyServer. -/
structure Recording where
  mgr : State
  status : Status
  historyList : List HistoryList
  listExists : Bool
  historyTicker : TickerIndex → Option HistoryTicker

/-- The list for the leaf paths that Unmarshal reads, none where it fails. -/
def createHistoryList (leafPaths : Option (List GoString)) : Option (List HistoryList) :=
  leafPaths.map fun paths => paths.map fun path => { path }

/-- The state in which the loop and historyServer get to their selects. -/
def initialRecording (leafPaths : Option (List GoString)) : Recording where
  mgr := initialState
  status := .running
  historyList := (createHistoryList leafPaths).getD []
  listExists := (createHistoryList leafPaths).isSome
  historyTicker _ := none

def Recording.service (x : Recording) : Service := ⟨x.mgr, x.status⟩

/-- As activateInterval, but that the frequency, in cycles per hour, is a divisor first. -/
def activateHistory (x : Recording) (signalId frequency : ℤ) : MayPanic Recording :=
  match tickerSlot x.mgr 0 with
  | none => some x
  | some i =>
      if frequency = 0 then none
      else
        let period := wrapInt64 (Int.tdiv (3600 * 1000) frequency * 1000000)
        if period ≤ 0 then none
        else some { x with
          mgr := { x.mgr with
            tickerIndexList := Function.update x.mgr.tickerIndexList i signalId }
          historyTicker := Function.update x.historyTicker i (some { period, signalId }) }

/-- A signal id without a slot is the index -1, and a slot may have no ticker to stop. -/
def deactivateHistory (x : Recording) (signalId : ℤ) : MayPanic Recording := do
  let i ← tickerSlot x.mgr signalId
  let ticker ← x.historyTicker i
  some { x with
    mgr := { x.mgr with tickerIndexList := Function.update x.mgr.tickerIndexList i 0 }
    historyTicker := Function.update x.historyTicker i (some { ticker with stopped := true }) }

/-- The first element with the path; none is the index -1. -/
def getHistoryListIndex (path : GoString) (historyList : List HistoryList) : Option ℕ :=
  historyList.findIdx? fun signal => signal.path = path

def Recording.modifySignal (x : Recording) (k : ℕ) (f : HistoryList → HistoryList) : Recording :=
  { x with historyList := x.historyList.modify k f }

/-- The strings that make returns: it panics where the length is negative, or where strings
of 16 bytes each are more than an address space of 48 bits. -/
def makeStrings (length : ℤ) : MayPanic (List GoString) :=
  if length < 0 ∨ 2 ^ 44 < length then none else some (List.replicate length.toNat [])

/-- A number in a string; the inner none is a missing or malformed one. -/
def numberMember (requestMap : GoMap Json) (k : GoString) : MayPanic (Option ℤ) :=
  if isNull (valueAt requestMap k) then some none
  else (asString (valueAt requestMap k)).map atoi

/-- The index is used behind the checks of the request, where -1 panics. -/
def createCase (x : Recording) (requestMap : GoMap Json) (index : Option ℕ) :
    MayPanic (Recording × GoString) := do
  match ← numberMember requestMap (str "buf-size") with
  | none => some (x, str "400 Bad Request")
  | some bufSize =>
      let k ← index
      let buffer ← makeStrings bufSize
      some (x.modifySignal k fun signal => { signal with bufSize, buffer }, str "200 OK")

def startCase (x : Recording) (requestMap : GoMap Json) (index : Option ℕ) :
    MayPanic (Recording × GoString) := do
  match ← numberMember requestMap (str "frequency") with
  | none => some (x, str "400 Bad Request")
  | some frequency =>
      let k ← index
      let x := x.modifySignal k fun signal => { signal with frequency, status := 1 }
      some (← activateHistory x k frequency, str "200 OK")

def stopCase (x : Recording) (index : Option ℕ) : MayPanic (Recording × GoString) := do
  let k ← index
  let x := x.modifySignal k fun signal => { signal with status := 0 }
  some (← deactivateHistory x k, str "200 OK")

def deleteCase (x : Recording) (index : Option ℕ) : MayPanic (Recording × GoString) := do
  let k ← index
  let signal ← x.historyList[k]?
  if signal.status ≠ 0 then some (x, str "409 Conflict")
  else
    some (x.modifySignal k fun signal =>
      { signal with frequency := 0, bufSize := 0, bufIndex := 0, buffer := [] }, str "200 OK")

def processHistoryCtrl (x : Recording) (histCtrlReq : GoString) :
    MayPanic (Recording × GoString) :=
  if x.listExists = false then some (x, str "500 Internal Server Error")
  else
    let requestMap := requestMapOf histCtrlReq
    if isNull (valueAt requestMap (str "action")) ∨ isNull (valueAt requestMap (str "path")) then
      some (x, str "400 Bad Request")
    else do
      let path ← asString (valueAt requestMap (str "path"))
      let index := getHistoryListIndex path x.historyList
      let action ← asString (valueAt requestMap (str "action"))
      if action = str "create" then createCase x requestMap index
      else if action = str "start" then startCase x requestMap index
      else if action = str "stop" then stopCase x index
      else if action = str "delete" then deleteCase x index
      else some (x, str "400 Bad Request")

/-- What the selects of the two goroutines receive. -/
inductive RecordingEvent
  | loop (m : Moment) (e : Event)
  | histCtrl (histCtrlReq : GoString)

/-- The state after some passes of the loop of internal-killsubscriptions, whether it ends
there or not. -/
def killPasses (routerId : GoString) : ℕ → State → State
  | 0, s => s
  | passes + 1, s =>
      match scanAndRemoveListItem s routerId with
      | some (true, s) => killPasses routerId passes s
      | _ => s

/-- A loop that is caught in the handler of a kill request has removed what it can. -/
def stuckState (s : State) : Event → State
  | .request request =>
      killPasses (textMember (requestMapOf request) (str "RouterId"))
        (s.subscriptionList.length + 1) s
  | _ => s

def loopStep (cfg : Config) (x : Recording) (m : Moment) (e : Event) :
    Option (Recording × Output) :=
  (serviceStep cfg x.service (m, e)).map fun (after, output) =>
    ({ x with
      mgr := if after.status = .hanging then stuckState x.mgr e else after.mgr
      status := after.status }, output)

def histCtrlStep (x : Recording) (histCtrlReq : GoString) : Recording × Output :=
  match processHistoryCtrl x histCtrlReq with
  | none => ({ x with status := .panicked }, ⟨[], []⟩)
  | some (x, answer) => (x, ⟨[answer], []⟩)

/-- A pass of one of the loops. historyServer goes on when the loop does not, but for a
panic, which ends the process. -/
def recordingStep (cfg : Config) (x : Recording) : RecordingEvent → Option (Recording × Output)
  | .loop m e => loopStep cfg x m e
  | .histCtrl histCtrlReq =>
      if ¬ cfg.historySupport ∨ x.status = .panicked then none
      else some (histCtrlStep x histCtrlReq)

abbrev RecordingMove := Move Recording RecordingEvent Output

abbrev RecordingHistory := History Recording RecordingEvent Output

/-- A run of the loop and historyServer, on any list of leaf paths. -/
abbrev RecordingRun (cfg : Config) (h : RecordingHistory) (x : Recording) : Prop :=
  Run (recordingStep cfg) (fun x => ∃ leafPaths, x = initialRecording leafPaths) h x

/-- What a control request that is answered did to the state. -/
inductive Controlled (x : Recording) (requestMap : GoMap Json) : Recording → Prop
  | same : Controlled x requestMap x
  | edit {k : ℕ} {f : HistoryList → HistoryList} :
      (∀ signal, (f signal).status = signal.status) →
      Controlled x requestMap (x.modifySignal k f)
  | start {path : GoString} {frequency : ℤ} {k : ℕ} {x' : Recording} :
      textMember requestMap (str "action") = str "start" →
      valueAt requestMap (str "path") = .str path →
      numberMember requestMap (str "frequency") = some (some frequency) →
      getHistoryListIndex path x.historyList = some k →
      activateHistory (x.modifySignal k fun signal => { signal with frequency, status := 1 })
        k frequency = some x' →
      Controlled x requestMap x'
  | stop {path : GoString} {k : ℕ} {x' : Recording} :
      textMember requestMap (str "action") = str "stop" →
      valueAt requestMap (str "path") = .str path →
      getHistoryListIndex path x.historyList = some k →
      deactivateHistory (x.modifySignal k fun signal => { signal with status := 0 }) k =
        some x' →
      Controlled x requestMap x'

theorem createCase_controlled {x x' : Recording} {requestMap : GoMap Json} {index : Option ℕ}
    {answer : GoString} (h : createCase x requestMap index = some (x', answer)) :
    Controlled x requestMap x' := by
  simp only [createCase, Option.bind_eq_bind, Option.bind_eq_some_iff] at h
  obtain ⟨bufSize, -, h⟩ := h
  split at h
  · obtain ⟨rfl, -⟩ := Prod.mk.inj (Option.some.inj h)
    exact .same
  · simp only [Option.bind_eq_some_iff, Option.some.injEq, Prod.mk.injEq] at h
    obtain ⟨k, -, buffer, -, rfl, -⟩ := h
    exact .edit fun _ => rfl

theorem deleteCase_controlled {x x' : Recording} {requestMap : GoMap Json} {index : Option ℕ}
    {answer : GoString} (h : deleteCase x index = some (x', answer)) :
    Controlled x requestMap x' := by
  simp only [deleteCase, Option.bind_eq_bind, Option.bind_eq_some_iff] at h
  obtain ⟨k, -, signal, -, h⟩ := h
  split at h
  · obtain ⟨rfl, -⟩ := Prod.mk.inj (Option.some.inj h)
    exact .same
  · obtain ⟨rfl, -⟩ := Prod.mk.inj (Option.some.inj h)
    exact .edit fun _ => rfl

/-- Every control request that is answered did one of these. -/
theorem processHistoryCtrl_controlled {x x' : Recording} {histCtrlReq answer : GoString}
    (h : processHistoryCtrl x histCtrlReq = some (x', answer)) :
    Controlled x (requestMapOf histCtrlReq) x' := by
  unfold processHistoryCtrl at h
  split at h
  · obtain ⟨rfl, -⟩ := Prod.mk.inj (Option.some.inj h)
    exact .same
  dsimp only at h
  split at h
  · obtain ⟨rfl, -⟩ := Prod.mk.inj (Option.some.inj h)
    exact .same
  simp only [Option.bind_eq_bind, Option.bind_eq_some_iff] at h
  obtain ⟨path, hpath, action, haction, h⟩ := h
  have htext : textMember (requestMapOf histCtrlReq) (str "action") = action := by
    rw [textMember, haction, Option.getD_some]
  rw [asString_eq_some] at hpath
  split at h
  · exact createCase_controlled h
  split at h
  · next hstart =>
    simp only [startCase, Option.bind_eq_bind, Option.bind_eq_some_iff] at h
    obtain ⟨frequency, hfrequency, h⟩ := h
    split at h
    · obtain ⟨rfl, -⟩ := Prod.mk.inj (Option.some.inj h)
      exact .same
    · simp only [Option.bind_eq_some_iff, Option.some.injEq, Prod.mk.injEq] at h
      obtain ⟨k, hk, x₁, hactivate, rfl, -⟩ := h
      exact .start (htext.trans hstart) hpath hfrequency hk hactivate
  split at h
  · next hstop =>
    simp only [stopCase, Option.bind_eq_bind, Option.bind_eq_some_iff, Option.some.injEq,
      Prod.mk.injEq] at h
    obtain ⟨k, hk, x₁, hdeactivate, rfl, -⟩ := h
    exact .stop (htext.trans hstop) hpath hk hdeactivate
  split at h
  · exact deleteCase_controlled h
  · obtain ⟨rfl, -⟩ := Prod.mk.inj (Option.some.inj h)
    exact .same

end VissServer.ServiceMgr
