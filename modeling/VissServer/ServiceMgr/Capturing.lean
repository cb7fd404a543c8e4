import VissServer.ServiceMgr.Table

/-!
The capture sessions of curve logging (curvelog.go) around the loop of the service manager:
curveLoggingServer starts a thread for each of its signals, and the threads send their packs
to the loop until they see their subscription id in closeClSubId. What a thread measures is
left open. The tickers of interval subscriptions send through goroutines of their own, so
that a tick can be on its way when its subscription is gone.
-/
namespace VissServer.ServiceMgr

open Go Utils Runs

structure CLPack where
  dataPack : GoString
  subscriptionId : ℤ

/-- The buffer size of CLChannel. -/
def CLCHANNELSIZE : ℕ := 5

/-- A curveLoggingServer: the signals that it has still to start a thread for, none before
it has grouped its paths, and whether the first data point of the next ones is sent. At the
end it waits at threadsChan for ever. -/
structure CaptureServer where
  subscriptionId : ℤ
  dimList : Option (List (List GoString)) := none
  returned : Bool := false

/-- A running clCapture1dim, clCapture2dim or clCapture3dim, with the data packs that it
has still to send before it measures again. -/
structure CaptureThread where
  subscriptionId : ℤ
  paths : List GoString
  closeClSession : Bool := false
  dataPacks : List GoString := []

structure Capturing where
  service : Service
  servers : List CaptureServer
  threads : List CaptureThread
  CLChannel : List CLPack
  /-- The ids that the goroutines of the tickers are sending on subscriptionChan. -/
  ticks : List ℤ

/-- What the loop receives in a pass, and what the goroutines around it do. -/
inductive CaptureEvent
  | request (request : GoString)
  | dummyTick
  | interval (subscriptionId : ℤ)
  | clPack
  | subscriptTick
  | tick (index : TickerIndex)
  | populateDimLists (server : ℕ) (dimList : List (List GoString))
  | returnSingleDp (server : ℕ) (dataPack : GoString)
  | goCapture (server : ℕ)
  | poll (thread : ℕ) (dataPacks : List GoString)
  | send (thread : ℕ)

/-- The passes of the loop, by what they receive. -/
def received (x : Capturing) : CaptureEvent → Option Event
  | .request request => some (.request request)
  | .dummyTick => some .dummyTick
  | .interval subscriptionId =>
      if subscriptionId ∈ x.ticks then some (.interval subscriptionId) else none
  | .clPack => x.CLChannel.head?.map fun clPack => .clPack clPack.subscriptionId clPack.dataPack
  | .subscriptTick => some .subscriptTick
  | _ => none

/-- The state in which the loop of internal-killsubscriptions goes round: once a pass leaves
its entry in the list, all others do the same. -/
def killLoopState (routerId : GoString) : ℕ → State → State
  | 0, s => s
  | passes + 1, s =>
      match scanAndRemoveListItem s routerId with
      | some (true, s) => killLoopState routerId passes s
      | _ => s

def caughtState (s : State) (request : GoString) : State :=
  killLoopState (textMember (requestMapOf request) (str "RouterId"))
    (s.subscriptionList.length + 1) s

/-- A pass of the loop. Without a dummyTicker it panics, whatever it would receive. -/
def loopPass (cfg : Config) (m : Moment) (x : Service) (e : Event) :
    Option (Service × Output) :=
  if cfg.stateDbNone then
    if x.status = .running ∨ x.status = .unanswered then some (⟨x.mgr, .panicked⟩, ⟨[], []⟩)
    else none
  else
    (serviceStep cfg x (m, e)).map fun r =>
      match r.1.status, e with
      | .hanging, .request request => (⟨caughtState x.mgr request, .hanging⟩, r.2)
      | _, _ => r

/-- The servers that a pass has started. -/
def startedServers (s s' : State) : List CaptureServer :=
  (s'.curveLoggingServers.drop s.curveLoggingServers.length).map fun c =>
    { subscriptionId := c.subscriptionId }

/-- Channels and goroutines after a pass of the loop. -/
def Capturing.after (x : Capturing) (e : CaptureEvent) (service : Service) : Capturing where
  service
  servers := x.servers ++ startedServers x.service.mgr service.mgr
  threads := x.threads
  CLChannel :=
    match e with
    | .clPack => x.CLChannel.tail
    | _ => x.CLChannel
  ticks :=
    match e with
    | .interval subscriptionId => x.ticks.erase subscriptionId
    | _ => x.ticks

/-- A thread that closes ends with its last data pack. -/
def putThread (threads : List CaptureThread) (index : ℕ) (thread : CaptureThread) :
    List CaptureThread :=
  if thread.closeClSession ∧ thread.dataPacks = [] then threads.eraseIdx index
  else threads.set index thread

/-- A step of a goroutine. A ticker keeps one tick while another one is being sent. A thread
polls closeClSubId each time that it measures. -/
def goroutineStep (x : Capturing) : CaptureEvent → Option Capturing
  | .tick index => do
      let ticker ← x.service.mgr.subscriptionTicker index
      if ticker.stopped ∨ 2 ≤ x.ticks.count ticker.subscriptionId then none
      else some { x with ticks := x.ticks ++ [ticker.subscriptionId] }
  | .populateDimLists index dimList => do
      let server ← x.servers[index]?
      if server.dimList.isSome then none
      else some { x with servers := x.servers.set index { server with dimList := some dimList } }
  | .returnSingleDp index dataPack => do
      let server ← x.servers[index]?
      let dimList ← server.dimList
      if dimList = [] ∨ server.returned then none
      else if x.service.mgr.numOfClSessions > MAXCLSESSIONS then
        some { x with servers := x.servers.set index { server with dimList := some [] } }
      else if x.CLChannel.length < CLCHANNELSIZE then
        some { x with
          servers := x.servers.set index { server with returned := true }
          CLChannel := x.CLChannel ++ [⟨dataPack, server.subscriptionId⟩] }
      else none
  | .goCapture index => do
      let server ← x.servers[index]?
      match server.dimList, server.returned with
      | some (paths :: dimList), true =>
          some { x with
            service := { x.service with mgr := { x.service.mgr with
              numOfClSessions := x.service.mgr.numOfClSessions + 1 } }
            servers := x.servers.set index
              { server with dimList := some dimList, returned := false }
            threads := x.threads ++ [{ subscriptionId := server.subscriptionId, paths }] }
      | _, _ => none
  | .poll index dataPacks => do
      let thread ← x.threads[index]?
      if thread.closeClSession ∨ thread.dataPacks ≠ [] then none
      else
        let closeClSession : Bool := x.service.mgr.closeClSubId = thread.subscriptionId
        some { x with
          threads := putThread x.threads index { thread with closeClSession, dataPacks } }
  | .send index => do
      let thread ← x.threads[index]?
      match thread.dataPacks with
      | [] => none
      | dataPack :: dataPacks =>
          if x.CLChannel.length < CLCHANNELSIZE then
            some { x with
              threads := putThread x.threads index { thread with dataPacks }
              CLChannel := x.CLChannel ++ [⟨dataPack, thread.subscriptionId⟩] }
          else none
  | _ => none

/-- A panic ends the process. -/
def captureStep (cfg : Config) (x : Capturing) :
    Moment × CaptureEvent → Option (Capturing × Output)
  | (m, e) =>
      if x.service.status = .panicked then none
      else
        match received x e with
        | some r => (loopPass cfg m x.service r).map fun (service, output) =>
            (x.after e service, output)
        | none => (goroutineStep x e).map fun x' => (x', ⟨[], []⟩)

def initialCapturing : Capturing where
  service := ⟨initialState, .running⟩
  servers := []
  threads := []
  CLChannel := []
  ticks := []

abbrev CaptureMove := Move Capturing (Moment × CaptureEvent) Output

abbrev CaptureHistory := History Capturing (Moment × CaptureEvent) Output

abbrev CaptureRun (cfg : Config) (h : CaptureHistory) (x : Capturing) : Prop :=
  Run (captureStep cfg) (· = initialCapturing) h x

/-- A run with capture sessions, given by its events and a property of its history. -/
theorem exists_captureRun (cfg : Config) (es : List (Moment × CaptureEvent))
    (p : CaptureHistory → Prop)
    (hes : ∃ r ∈ replay (captureStep cfg) [] initialCapturing es, p r.1) :
    ∃ h x, CaptureRun cfg h x ∧ p h := exists_run_of_replay es p rfl hes

section

variable {cfg : Config} {m : Moment} {s : State} {x x' : Capturing} {e : CaptureEvent}
  {output : Output} {request routerId : GoString}

theorem killLoopState_deactivations (routerId : GoString) (passes : ℕ) (s : State) :
    Deactivations (namedBy routerId) s (killLoopState routerId passes s) := by
  induction passes generalizing s with
  | zero => exact .none s
  | succ passes ih =>
    rw [killLoopState]
    split
    · next s₁ hscan => exact scanAndRemoveListItem_deactivations hscan (ih s₁)
    · exact .none s

theorem Handled.once_ne_hang (r : MayPanic (State × GoString)) :
    (Handled.once r).ending ≠ .hang := by
  cases r <;> simp [Handled.once]

/-- Only internal-killsubscriptions can keep the loop for ever. -/
theorem handleRequest_hang (h : (handleRequest cfg m s request).ending = .hang) :
    actionOf (requestMapOf request) = .killSubscriptions ∧
      ∃ routerId, valueAt (requestMapOf request) (str "RouterId") = .str routerId := by
  unfold handleRequest at h
  dsimp only at h
  cases haction : actionOf (requestMapOf request) with
  | set =>
    rw [haction] at h
    exact absurd h (Handled.once_ne_hang _)
  | get =>
    rw [haction] at h
    exact absurd h (Handled.once_ne_hang _)
  | unsubscribe =>
    rw [haction] at h
    exact absurd h (Handled.once_ne_hang _)
  | other =>
    rw [haction] at h
    exact absurd h (Handled.once_ne_hang _)
  | subscribe =>
    rw [haction] at h
    simp only [subscribeRequest] at h
    split at h
    · split at h
      · exact absurd h (Handled.once_ne_hang _)
      · split at h
        · exact absurd h (Handled.once_ne_hang _)
        · exact absurd h (Handled.once_ne_hang _)
    · simp at h
  | killSubscriptions =>
    rw [haction] at h
    simp only [killSubscriptions] at h
    split at h
    · simp at h
    · next routerId hrouter => exact ⟨rfl, routerId, asString_eq_some.mp hrouter⟩
  | cancelSubscription =>
    rw [haction] at h
    simp only [cancelSubscription] at h
    split at h
    · simp at h
    · split at h
      · simp at h
      · dsimp only at h
        split at h <;> simp at h

theorem caughtState_effect (h : (handleRequest cfg m s request).ending = .hang) :
    Effect m s (requestMapOf request) (caughtState s request) := by
  obtain ⟨haction, routerId, hrouter⟩ := handleRequest_hang h
  have hmember : textMember (requestMapOf request) (str "RouterId") = routerId := by
    rw [textMember, asString_eq_some.mpr hrouter, Option.getD_some]
  refine .kill haction hrouter ?_
  rw [caughtState, hmember]
  exact killLoopState_deactivations routerId _ s

/-- The state behind a pass of the loop that takes a request. -/
inductive Requested (cfg : Config) (m : Moment) (s : State) (request : GoString) :
    Service → Prop
  | back {s' : State} {status : Status} :
      (handleRequest cfg m s request).ending = .back s' → status ≠ .panicked →
      Requested cfg m s request ⟨s', status⟩
  | caught : (handleRequest cfg m s request).ending = .hang →
      Requested cfg m s request ⟨caughtState s request, .hanging⟩
  | panicked : Requested cfg m s request ⟨s, .panicked⟩

theorem statusAfter_ne_panicked (request : GoString) (answers : List GoString) :
    statusAfter request answers ≠ .panicked :=
  (statusAfter_alive (s := initialState) request answers).1

theorem loopPass_request {y y' : Service}
    (h : loopPass cfg m y (.request request) = some (y', output)) :
    Requested cfg m y.mgr request y' := by
  unfold loopPass at h
  split at h
  · split at h
    · rw [← (Prod.mk.inj (Option.some.inj h)).1]
      exact .panicked
    · simp at h
  · rw [Option.map_eq_some_iff] at h
    obtain ⟨r, hr, heq⟩ := h
    simp only [serviceStep] at hr
    split at hr
    · simp at hr
    · rw [← Option.some.inj hr] at heq
      have hafter : _ = y' := congrArg Prod.fst heq
      rw [← hafter]
      unfold requestStep
      dsimp only
      cases hending : (handleRequest cfg m y.mgr request).ending with
      | back s' =>
        dsimp only
        have hnothanging : statusAfter request (handleRequest cfg m y.mgr request).answers ≠
            .hanging := (statusAfter_alive (s := initialState) request _).2
        split
        · next hstatus _ => exact absurd hstatus hnothanging
        · exact .back hending (statusAfter_ne_panicked request _)
      | panic => exact .panicked
      | hang => exact .caught hending

/-- The state behind a pass of the loop that takes anything else. -/
theorem loopPass_trigger {y y' : Service} {r : Event} (hr : ∀ request, r ≠ .request request)
    (h : loopPass cfg m y r = some (y', output)) :
    (∃ messages, handleTrigger cfg m y.mgr r = some (y'.mgr, messages) ∧
      y'.status ≠ .panicked ∧ output.notifications = messages) ∨
    (y'.mgr = y.mgr ∧ y'.status = .panicked ∧
      (cfg.stateDbNone = true ∨ handleTrigger cfg m y.mgr r = none)) := by
  unfold loopPass at h
  split at h
  · next hnone =>
    split at h
    · rw [← (Prod.mk.inj (Option.some.inj h)).1]
      exact .inr ⟨rfl, rfl, .inl hnone⟩
    · simp at h
  · rw [Option.map_eq_some_iff] at h
    obtain ⟨⟨y₁, o₁⟩, hstep, heq⟩ := h
    have hsame : (y₁, o₁) = (y', output) := by
      rw [← heq]
      split
      · next hrequest => exact absurd rfl (hr _)
      · rfl
    obtain ⟨rfl, rfl⟩ := Prod.mk.inj hsame
    have hrunning : (y.status = .running ∨ y.status = .unanswered) ∧
        triggerStep cfg m y r = (y₁, o₁) := by
      cases r with
      | request request => exact absurd rfl (hr request)
      | _ =>
        simp only [serviceStep] at hstep
        split at hstep
        · simp at hstep
        · next hstatus =>
          rw [not_or, not_and_or, not_not, not_not] at hstatus
          exact ⟨hstatus.2, Option.some.inj hstep⟩
    obtain ⟨hrunning, htrigger⟩ := hrunning
    unfold triggerStep at htrigger
    cases hhandle : handleTrigger cfg m y.mgr r with
    | none =>
      rw [hhandle] at htrigger
      rw [← (Prod.mk.inj htrigger).1]
      exact .inr ⟨rfl, rfl, .inr rfl⟩
    | some p =>
      obtain ⟨s', messages⟩ := p
      rw [hhandle] at htrigger
      obtain ⟨hy₁, ho₁⟩ := Prod.mk.inj htrigger
      rw [← hy₁, ← ho₁]
      refine .inl ⟨messages, rfl, ?_, rfl⟩
      dsimp only
      split
      · rcases hrunning with hrunning | hrunning <;> simp [hrunning]
      · simp

/-- A pass of the loop changes the state as a request or a trigger does, or not at all. -/
theorem loopPass_mgr {y y' : Service} {r : Event} (h : loopPass cfg m y r = some (y', output)) :
    y'.mgr = y.mgr ∨
    (∃ request, r = .request request ∧ Effect m y.mgr (requestMapOf request) y'.mgr) ∨
    ∃ messages, handleTrigger cfg m y.mgr r = some (y'.mgr, messages) := by
  by_cases hr : ∃ request, r = .request request
  · obtain ⟨request, rfl⟩ := hr
    cases loopPass_request h with
    | back hending _ => exact .inr (.inl ⟨request, rfl, handleRequest_effect hending⟩)
    | caught hending => exact .inr (.inl ⟨request, rfl, caughtState_effect hending⟩)
    | panicked => exact .inl rfl
  · have hrequest : ∀ request, r ≠ .request request := fun request heq => hr ⟨request, heq⟩
    rcases loopPass_trigger hrequest h with ⟨messages, hhandle, -⟩ | ⟨hmgr, -⟩
    · exact .inr (.inr ⟨messages, hhandle⟩)
    · exact .inl hmgr

/-- The steps of the goroutines around the loop. -/
inductive Goroutine (x : Capturing) : CaptureEvent → Capturing → Prop
  | tick {index : TickerIndex} {ticker : Ticker} :
      x.service.mgr.subscriptionTicker index = some ticker →
      Goroutine x (.tick index) { x with ticks := x.ticks ++ [ticker.subscriptionId] }
  | populateDimLists {index : ℕ} {server : CaptureServer} {dimList : List (List GoString)} :
      x.servers[index]? = some server → server.dimList = none →
      Goroutine x (.populateDimLists index dimList)
        { x with servers := x.servers.set index { server with dimList := some dimList } }
  | exhausted {index : ℕ} {server : CaptureServer} {dataPack : GoString} :
      x.servers[index]? = some server →
      Goroutine x (.returnSingleDp index dataPack)
        { x with servers := x.servers.set index { server with dimList := some [] } }
  | returnSingleDp {index : ℕ} {server : CaptureServer} {dataPack : GoString} :
      x.servers[index]? = some server →
      Goroutine x (.returnSingleDp index dataPack)
        { x with
          servers := x.servers.set index { server with returned := true }
          CLChannel := x.CLChannel ++ [⟨dataPack, server.subscriptionId⟩] }
  | goCapture {index : ℕ} {server : CaptureServer} {paths : List GoString}
      {dimList : List (List GoString)} :
      x.servers[index]? = some server → server.dimList = some (paths :: dimList) →
      Goroutine x (.goCapture index)
        { x with
          service := { x.service with mgr := { x.service.mgr with
            numOfClSessions := x.service.mgr.numOfClSessions + 1 } }
          servers := x.servers.set index
            { server with dimList := some dimList, returned := false }
          threads := x.threads ++ [{ subscriptionId := server.subscriptionId, paths }] }
  | poll {index : ℕ} {thread : CaptureThread} {dataPacks : List GoString} :
      x.threads[index]? = some thread → thread.closeClSession = false →
      Goroutine x (.poll index dataPacks)
        { x with
          threads := putThread x.threads index { thread with
            closeClSession := (x.service.mgr.closeClSubId = thread.subscriptionId : Bool)
            dataPacks } }
  | send {index : ℕ} {thread : CaptureThread} {dataPack : GoString}
      {dataPacks : List GoString} :
      x.threads[index]? = some thread → thread.dataPacks = dataPack :: dataPacks →
      Goroutine x (.send index)
        { x with
          threads := putThread x.threads index { thread with dataPacks }
          CLChannel := x.CLChannel ++ [⟨dataPack, thread.subscriptionId⟩] }

theorem goroutineStep_some (h : goroutineStep x e = some x') : Goroutine x e x' := by
  cases e with
  | request | dummyTick | interval | clPack | subscriptTick => simp [goroutineStep] at h
  | tick index =>
    simp only [goroutineStep, Option.bind_eq_bind, Option.bind_eq_some_iff] at h
    obtain ⟨ticker, hticker, h⟩ := h
    split at h
    · simp at h
    · rw [← Option.some.inj h]
      exact .tick hticker
  | populateDimLists index dimList =>
    simp only [goroutineStep, Option.bind_eq_bind, Option.bind_eq_some_iff] at h
    obtain ⟨server, hserver, h⟩ := h
    split at h
    · simp at h
    · next hnone =>
      rw [← Option.some.inj h]
      exact .populateDimLists hserver (by simpa using hnone)
  | returnSingleDp index dataPack =>
    simp only [goroutineStep, Option.bind_eq_bind, Option.bind_eq_some_iff] at h
    obtain ⟨server, hserver, dimList, -, h⟩ := h
    split at h
    · simp at h
    · split at h
      · rw [← Option.some.inj h]
        exact .exhausted hserver
      · split at h
        · rw [← Option.some.inj h]
          exact .returnSingleDp hserver
        · simp at h
  | goCapture index =>
    simp only [goroutineStep, Option.bind_eq_bind, Option.bind_eq_some_iff] at h
    obtain ⟨server, hserver, h⟩ := h
    split at h
    · next hdimList _ =>
      rw [← Option.some.inj h]
      exact .goCapture hserver hdimList
    · simp at h
  | poll index dataPacks =>
    simp only [goroutineStep, Option.bind_eq_bind, Option.bind_eq_some_iff] at h
    obtain ⟨thread, hthread, h⟩ := h
    split at h
    · simp at h
    · next hclear =>
      rw [not_or] at hclear
      rw [← Option.some.inj h]
      exact .poll hthread (by simpa using hclear.1)
  | send index =>
    simp only [goroutineStep, Option.bind_eq_bind, Option.bind_eq_some_iff] at h
    obtain ⟨thread, hthread, h⟩ := h
    split at h
    · simp at h
    · next hdataPacks =>
      split at h
      · rw [← Option.some.inj h]
        exact .send hthread hdataPacks
      · simp at h

/-- A step is a pass of the loop, or one of a goroutine. -/
theorem captureStep_some (h : captureStep cfg x (m, e) = some (x', output)) :
    (∃ r service, received x e = some r ∧ loopPass cfg m x.service r = some (service, output) ∧
      x' = x.after e service) ∨
    (Goroutine x e x' ∧ output = ⟨[], []⟩) := by
  unfold captureStep at h
  dsimp only at h
  split at h
  · simp at h
  · split at h
    · next r hr =>
      obtain ⟨⟨service, o⟩, hpass, heq⟩ := Option.map_eq_some_iff.mp h
      obtain ⟨rfl, rfl⟩ := Prod.mk.inj heq
      exact .inl ⟨r, service, hr, hpass, rfl⟩
    · obtain ⟨x₁, hstep, heq⟩ := Option.map_eq_some_iff.mp h
      obtain ⟨rfl, rfl⟩ := Prod.mk.inj heq
      exact .inr ⟨goroutineStep_some hstep, rfl⟩

theorem Goroutine.mgr (h : Goroutine x e x') :
    ∃ numOfClSessions, x'.service = { x.service with
      mgr := { x.service.mgr with numOfClSessions } } := by
  cases h with
  | goCapture => exact ⟨_, rfl⟩
  | _ => exact ⟨x.service.mgr.numOfClSessions, rfl⟩

end

end VissServer.ServiceMgr
