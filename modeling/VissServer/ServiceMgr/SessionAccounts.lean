import VissServer.ServiceMgr.CloseSignals

/-!
The accounts of the capture sessions: numOfClSessions counts the threads that were started, each
curveLoggingServer announces as many threads as its lists are long, and nothing takes a thread that
has ended off the count.
-/
namespace VissServer.ServiceMgr

open Go Utils Runs

/-! ## The accounts -/

/-- The part of NumofThreads that a step adds, the length of the lists of a server. -/
def announces (server : ℕ) : CaptureEvent → ℕ
  | .populateDimLists index dimList => if index = server then dimList.length else 0
  | _ => 0

def starts (server : ℕ) : CaptureEvent → ℕ
  | .goCapture index => if index = server then 1 else 0
  | _ => 0

def announced (h : CaptureHistory) (server : ℕ) : ℕ :=
  (h.map fun y => announces server y.event.2).sum

def started (h : CaptureHistory) (server : ℕ) : ℕ :=
  (h.map fun y => starts server y.event.2).sum

/-- The server is behind its loops and offers its SubThreads. -/
def Offers (x : Capturing) (server : ℕ) : Prop :=
  ∃ c, x.servers[server]? = some c ∧ c.dimList = some []

/-- The sessions are counted as they run, within the limit, and announced as they were started. -/
structure SessionsAccounted (h : CaptureHistory) (x : Capturing) : Prop where
  running : x.service.mgr.numOfClSessions = x.threads.length
  limit : x.service.mgr.numOfClSessions ≤ MAXCLSESSIONS
  announced : ∀ server, Offers x server → announced h server = started h server

/-- A thread polls with closeClSubId set to its id and has nothing to send, or sends the last pack
of a session that closes. -/
def endsThread (x : Capturing) : CaptureEvent → Bool
  | .poll index dataPacks => (x.threads[index]?).any fun t =>
      x.service.mgr.closeClSubId = t.subscriptionId && dataPacks.isEmpty
  | .send index => (x.threads[index]?).any fun t => t.closeClSession && t.dataPacks.length = 1
  | _ => false

/-- A thread is started that is one too many. -/
def overdraws (x : Capturing) : CaptureEvent → Bool
  | .goCapture _ => MAXCLSESSIONS ≤ x.service.mgr.numOfClSessions
  | _ => false

/-- No thread ends, and none is started at the limit. -/
def KeepsAccounts (y : CaptureMove) : Prop :=
  endsThread y.before y.event.2 = false ∧ overdraws y.before y.event.2 = false
  deriving Decidable

section Accounts

variable {cfg : Config} {m : Moment} {s s' : State} {requestMap : GoMap Json}
  {h : CaptureHistory} {x x' : Capturing} {e : CaptureEvent} {y : CaptureMove} {output : Output}

/-! ## The counter -/

theorem stopTrigger_sessions {e : SubscriptionState} (h : stopTrigger s e = some s') :
    s'.numOfClSessions = s.numOfClSessions := by
  unfold stopTrigger at h
  split at h
  · simp only [deactivateInterval, Option.bind_eq_bind, Option.bind_eq_some_iff,
      Option.some.injEq] at h
    obtain ⟨i, -, ticker, -, rfl⟩ := h
    rfl
  · split at h
    · rw [← Option.some.inj h]
    · rw [← Option.some.inj h]

theorem Deactivations.sessions {P : State → SubscriptionState → Prop}
    (h : Deactivations P s s') : s'.numOfClSessions = s.numOfClSessions := by
  induction h with
  | none => rfl
  | step hget _ hentry _ ih =>
    rw [ih]
    rw [deactivateEntry, Option.map_eq_some_iff] at hentry
    obtain ⟨s₁, hstop, rfl⟩ := hentry
    rw [← stopTrigger_sessions hstop]
    split <;> rfl

theorem activateIfIntervalOrCL_sessions {filterList : List FilterObject} {id : ℤ}
    {paths : List GoString} (h : activateIfIntervalOrCL s filterList id paths = some s') :
    s'.numOfClSessions = s.numOfClSessions := by
  induction filterList with
  | nil =>
    rw [activateIfIntervalOrCL] at h
    rw [← Option.some.inj h]
  | cons f filterList ih =>
    rw [activateIfIntervalOrCL] at h
    split at h
    · dsimp only at h
      split at h
      · unfold activateInterval at h
        split at h
        · rw [← Option.some.inj h]
        · dsimp only at h
          split at h
          · simp at h
          · rw [← Option.some.inj h]
      · rw [← Option.some.inj h]
    · split at h
      · rw [← Option.some.inj h]
      · exact ih h

theorem Effect.sessions (h : Effect m s requestMap s') :
    s'.numOfClSessions = s.numOfClSessions := by
  cases h with
  | quiet => rfl
  | subscribe _ _ _ _ _ _ hactivate =>
    have hsame := activateIfIntervalOrCL_sessions hactivate
    exact hsame
  | unsubscribe _ _ hdeactivations => exact hdeactivations.sessions
  | kill _ _ hdeactivations => exact hdeactivations.sessions
  | cancel _ _ _ _ hdeactivations => exact hdeactivations.sessions

theorem received_ne_capture {r : Event} (h : received x e = some r) : r ≠ .capture := by
  rintro rfl
  cases e with
  | interval id =>
    simp only [received] at h
    split at h <;> simp at h
  | clPack => simp [received] at h
  | _ => simp [received] at h

theorem loopPass_sessions {y y' : Service} {r : Event} (hr : r ≠ .capture)
    (h : loopPass cfg m y r = some (y', output)) :
    y'.mgr.numOfClSessions = y.mgr.numOfClSessions := by
  rcases loopPass_mgr h with hmgr | ⟨request, -, heffect⟩ | ⟨messages, htrigger⟩
  · rw [hmgr]
  · exact heffect.sessions
  · exact (handleTrigger_frame htrigger).2 hr

/-! ## One step -/

/-- The events that the loop receives. -/
theorem received_steady {r : Event} (h : received x e = some r) (server : ℕ) :
    announces server e = 0 ∧ starts server e = 0 ∧ endsThread x e = false ∧
      overdraws x e = false := by
  cases e with
  | request => exact ⟨rfl, rfl, rfl, rfl⟩
  | dummyTick => exact ⟨rfl, rfl, rfl, rfl⟩
  | interval => exact ⟨rfl, rfl, rfl, rfl⟩
  | clPack => exact ⟨rfl, rfl, rfl, rfl⟩
  | subscriptTick => exact ⟨rfl, rfl, rfl, rfl⟩
  | _ => exact nomatch h

def startsThread : CaptureEvent → ℕ
  | .goCapture _ => 1
  | _ => 0

/-- A step counts the thread that it starts. -/
theorem captureStep_sessions (h : captureStep cfg x (m, e) = some (x', output)) :
    x'.service.mgr.numOfClSessions = x.service.mgr.numOfClSessions + startsThread e := by
  rcases captureStep_some h with ⟨r, service, hr, hpass, rfl⟩ | ⟨hgoroutine, -⟩
  · have hstarts : startsThread e = 0 := by
      cases e with
      | goCapture => exact nomatch hr
      | _ => rfl
    rw [hstarts]
    exact (loopPass_sessions (received_ne_capture hr) hpass).trans (Int.add_zero _).symm
  · cases hgoroutine with
    | goCapture => rfl
    | _ => exact (Int.add_zero _).symm

theorem length_putThread {threads : List CaptureThread} {index : ℕ} {thread t : CaptureThread}
    (hget : threads[index]? = some t) :
    (putThread threads index thread).length +
      (if thread.closeClSession = true ∧ thread.dataPacks = [] then 1 else 0) =
        threads.length := by
  have hlt := (List.getElem?_eq_some_iff.mp hget).1
  unfold putThread
  split
  · rw [List.length_eraseIdx_of_lt hlt]
    omega
  · rw [List.length_set, add_zero]

/-- And takes the one that it ends out of the running ones, but not off the count. -/
theorem captureStep_threads (h : captureStep cfg x (m, e) = some (x', output)) :
    x'.threads.length + (endsThread x e).toNat = x.threads.length + startsThread e := by
  rcases captureStep_some h with ⟨r, service, hr, -, rfl⟩ | ⟨hgoroutine, -⟩
  · have hstarts : startsThread e = 0 := by
      cases e with
      | goCapture => exact nomatch hr
      | _ => rfl
    rw [hstarts, (received_steady hr 0).2.2.1]
    rfl
  · cases hgoroutine with
    | goCapture =>
      rw [List.length_append]
      rfl
    | @poll index thread dataPacks hthread hopen =>
      have hlength := @length_putThread _ _ { thread with
        closeClSession := (x.service.mgr.closeClSubId = thread.subscriptionId : Bool)
        dataPacks } _ hthread
      have hstarts : startsThread (.poll index dataPacks) = 0 := rfl
      dsimp only at hlength ⊢
      rw [hstarts, Nat.add_zero, ← hlength, endsThread, hthread, Option.any_some]
      congr 1
      by_cases hid : x.service.mgr.closeClSubId = thread.subscriptionId <;>
        cases dataPacks <;> simp [hid]
    | @send index thread dataPack dataPacks hthread hpacks =>
      have hlength := @length_putThread _ _ { thread with dataPacks } _ hthread
      have hstarts : startsThread (.send index) = 0 := rfl
      dsimp only at hlength ⊢
      rw [hstarts, Nat.add_zero, ← hlength, endsThread, hthread, Option.any_some, hpacks]
      congr 1
      cases thread.closeClSession <;> cases dataPacks <;> simp
    | _ => rfl

/-! ## What a server has still to start -/

def pending (servers : List CaptureServer) (server : ℕ) : ℕ :=
  match servers[server]? with
  | some c => (c.dimList.getD []).length
  | none => 0

theorem pending_append (servers : List CaptureServer) {servers' : List CaptureServer}
    (hnew : ∀ c ∈ servers', c.dimList = none) (server : ℕ) :
    pending (servers ++ servers') server = pending servers server := by
  unfold pending
  by_cases hlt : server < servers.length
  · rw [List.getElem?_append_left hlt]
  · have hle : servers.length ≤ server := by omega
    rw [List.getElem?_append_right hle, List.getElem?_eq_none hle]
    cases hget : servers'[server - servers.length]? with
    | none => rfl
    | some c =>
      dsimp only
      rw [hnew c (List.mem_of_getElem? hget)]
      rfl

theorem pending_set {servers : List CaptureServer} {index : ℕ} {c : CaptureServer}
    (hget : servers[index]? = some c) (c' : CaptureServer) (server : ℕ) :
    pending (servers.set index c') server =
      if index = server then (c'.dimList.getD []).length else pending servers server := by
  have hlt := (List.getElem?_eq_some_iff.mp hget).1
  unfold pending
  rw [List.getElem?_set]
  by_cases heq : index = server
  · rw [if_pos heq, if_pos heq, if_pos hlt]
  · rw [if_neg heq, if_neg heq]

theorem pending_of_get {servers : List CaptureServer} {index : ℕ} {c : CaptureServer}
    (hget : servers[index]? = some c) : pending servers index = (c.dimList.getD []).length := by
  rw [pending, hget]

/-- Below the limit a server goes on. -/
theorem returnSingleDp_room {index : ℕ} {dataPack : GoString}
    (hroom : x.service.mgr.numOfClSessions ≤ MAXCLSESSIONS)
    (h : captureStep cfg x (m, .returnSingleDp index dataPack) = some (x', output)) :
    ∃ c, x.servers[index]? = some c ∧
      x'.servers = x.servers.set index { c with returned := true } := by
  unfold captureStep at h
  dsimp only at h
  split at h
  · cases h
  · simp only [received, goroutineStep, Option.bind_eq_bind, Option.map_eq_some_iff,
      Option.bind_eq_some_iff, Prod.mk.injEq] at h
    obtain ⟨x₁, ⟨c, hget, dimList, -, hstep⟩, rfl, -⟩ := h
    refine ⟨c, hget, ?_⟩
    split at hstep
    · cases hstep
    · split at hstep
      · omega
      · split at hstep
        · rw [← Option.some.inj hstep]
        · cases hstep

theorem returnSingleDp_pending {index : ℕ} {dataPack : GoString}
    (hroom : x.service.mgr.numOfClSessions ≤ MAXCLSESSIONS)
    (h : captureStep cfg x (m, .returnSingleDp index dataPack) = some (x', output))
    (server : ℕ) : 0 + pending x'.servers server = 0 + pending x.servers server := by
  obtain ⟨c, hget, hservers⟩ := returnSingleDp_room hroom h
  rw [hservers, pending_set hget]
  by_cases heq : index = server
  · subst heq
    rw [if_pos rfl, pending_of_get hget]
  · rw [if_neg heq]

/-- What is announced is started or pending. -/
theorem captureStep_pending (hroom : x.service.mgr.numOfClSessions ≤ MAXCLSESSIONS)
    (h : captureStep cfg x (m, e) = some (x', output)) (server : ℕ) :
    starts server e + pending x'.servers server =
      announces server e + pending x.servers server := by
  rcases captureStep_some h with ⟨r, service, hr, -, rfl⟩ | ⟨hgoroutine, -⟩
  · obtain ⟨hannounces, hstarts, -⟩ := received_steady hr server
    have hservers : (x.after e service).servers =
        x.servers ++ startedServers x.service.mgr service.mgr := rfl
    rw [hannounces, hstarts, hservers, pending_append]
    intro c hc
    obtain ⟨c₀, -, rfl⟩ := List.mem_map.mp hc
    rfl
  · cases hgoroutine with
    | tick => rfl
    | poll => rfl
    | send => rfl
    | @populateDimLists index c dimList hget hnone =>
      rw [pending_set hget]
      by_cases heq : index = server
      · subst heq
        simp [starts, announces, pending_of_get hget, hnone]
      · simp [starts, announces, heq]
    | @goCapture index c paths dimList hget hsome =>
      rw [pending_set hget]
      by_cases heq : index = server
      · subst heq
        simp [starts, announces, pending_of_get hget, hsome, Nat.add_comm]
      · simp [starts, announces, heq]
    | @exhausted index c dataPack hget => exact returnSingleDp_pending hroom h server
    | @returnSingleDp index c dataPack hget => exact returnSingleDp_pending hroom h server

/-! ## Runs -/

/-- The invariant of the runs that keep the accounts. -/
structure Balanced (h : CaptureHistory) (x : Capturing) : Prop where
  running : x.service.mgr.numOfClSessions = x.threads.length
  limit : x.service.mgr.numOfClSessions ≤ MAXCLSESSIONS
  pending : ∀ server, started h server + pending x.servers server = announced h server

theorem Balanced.accounted (hx : Balanced h x) : SessionsAccounted h x := by
  refine ⟨hx.running, hx.limit, ?_⟩
  rintro server ⟨c, hget, hdone⟩
  rw [← hx.pending server, pending_of_get hget, hdone]
  rfl

theorem Balanced.next (hx : Balanced h y.before) (hy : y.Of (captureStep cfg))
    (hkeeps : KeepsAccounts y) : Balanced (y :: h) y.after := by
  obtain ⟨x, ⟨m, e⟩, x', output⟩ := y
  have hsessions := captureStep_sessions hy
  have hthreads := captureStep_threads hy
  have hrunning := hx.running
  have hlimit := hx.limit
  obtain ⟨hends, hover⟩ := hkeeps
  dsimp only at hends hover hsessions hthreads hrunning hlimit ⊢
  rw [hends] at hthreads
  refine ⟨?_, ?_, ?_⟩
  · rw [hsessions, hrunning, ← Int.natCast_add, ← hthreads]
    rfl
  · rw [hsessions]
    cases e with
    | goCapture index =>
      have hbelow := of_decide_eq_false hover
      simp only [startsThread]
      omega
    | _ =>
      simp only [startsThread]
      omega
  · intro server
    have hpending := captureStep_pending hlimit hy server
    have hbefore := hx.pending server
    have hstarted : started (⟨x, (m, e), x', output⟩ :: h) server =
        starts server e + started h server := rfl
    have hannounced : announced (⟨x, (m, e), x', output⟩ :: h) server =
        announces server e + announced h server := rfl
    rw [hstarted, hannounced]
    dsimp only at hbefore hpending
    omega

theorem SessionsAccounted.keeps (hx : Balanced h y.before) (hy : y.Of (captureStep cfg))
    (hafter : SessionsAccounted (y :: h) y.after) : KeepsAccounts y := by
  obtain ⟨x, ⟨m, e⟩, x', output⟩ := y
  have hsessions := captureStep_sessions hy
  have hthreads := captureStep_threads hy
  have hrunning := hx.running
  have hrunning' := hafter.running
  have hlimit' := hafter.limit
  dsimp only at hsessions hthreads hrunning hrunning' hlimit'
  refine ⟨?_, ?_⟩
  · cases hends : endsThread x e with
    | false => rfl
    | true =>
      rw [hends, Bool.toNat_true] at hthreads
      omega
  · cases e with
    | goCapture index =>
      have hone : ((startsThread (.goCapture index) : ℕ) : ℤ) = 1 := rfl
      rw [hone] at hsessions
      have hbelow : ¬ MAXCLSESSIONS ≤ x.service.mgr.numOfClSessions := by omega
      exact decide_eq_false hbelow
    | _ => rfl

end Accounts

/-- In a run the sessions are accounted for as long as no thread ends and none is started at the
limit, and no longer. -/
theorem sessions_accounted_iff {cfg : Config} {h : CaptureHistory} {x : Capturing}
    (hrun : CaptureRun cfg h x) :
    Always (fun h y => SessionsAccounted (y :: h) y.after) h ↔
      Always (fun _ y => KeepsAccounts y) h := by
  refine hrun.always_iff (I := Balanced) ?_ ?_ ?_
  · rintro x rfl
    exact ⟨rfl, by decide, fun _ => rfl⟩
  · intro h y hx hy
    exact ⟨fun hafter => hafter.keeps hx hy, fun hkeeps => (hx.next hy hkeeps).accounted⟩
  · intro h y hx hy hafter
    exact hx.next hy (hafter.keeps hx hy)

/-- A subscription of which two threads are started. -/
theorem sessions_accounted_pair : ∃ h x, CaptureRun sampleConfig h x ∧ started h 0 = 2 ∧
    Always (fun h y => SessionsAccounted (y :: h) y.after) h := by
  obtain ⟨h, x, hrun, hstarted, hkeeps⟩ := exists_captureRun sampleConfig
    ([.request (curveLogRequest "1?0"),
      .populateDimLists 0 [[str "Vehicle.Speed"], [str "Vehicle.Width"]],
      .returnSingleDp 0 (str "\x7b\x7d"), .goCapture 0, .returnSingleDp 0 (str "\x7b\x7d"),
      .goCapture 0, .poll 0 [str "\x7b\x7d"], .send 0].map fun e => (sampleMoment, e))
    (fun h => started h 0 = 2 ∧ Always (fun _ y => KeepsAccounts y) h) (by decide +kernel)
  exact ⟨h, x, hrun, hstarted, (sessions_accounted_iff hrun).mpr hkeeps⟩

/-- A subscription, the session of which is closed. -/
def closedSession : List (Moment × CaptureEvent) :=
  [.request (curveLogRequest "1?0"), .populateDimLists 0 [[str "Vehicle.Speed"]],
    .returnSingleDp 0 (str "\x7b\x7d"), .goCapture 0, .request (unsubscribeRequestOf "1"),
    .poll 0 [str "\x7b\x7d"], .send 0].map fun e => (sampleMoment, e)

/-- The thread that has ended stays in the count. -/
theorem ended_session_counted : ¬ ∀ cfg h x, CaptureRun cfg h x →
    Always (fun h y => SessionsAccounted (y :: h) y.after) h := by
  intro hall
  obtain ⟨h, x, hrun, hended⟩ := exists_captureRun sampleConfig closedSession
    (fun h => ¬ Always (fun _ y =>
      y.after.service.mgr.numOfClSessions = y.after.threads.length) h) (by decide +kernel)
  exact hended ((hall sampleConfig h x hrun).imp fun _ _ haccounted => haccounted.running)

end VissServer.ServiceMgr
