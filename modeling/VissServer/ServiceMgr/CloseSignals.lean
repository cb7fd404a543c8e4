import VissServer.Library.Traversals
import VissServer.ServiceMgr.CurveLogNotifications

/-!
How curve logging sessions are closed. deactivateSubscription puts the subscription id into
the one variable closeClSubId, where the threads of the session look for it, and the loop
takes the entry out of the list when the thread count of the entry is down to 0.
-/
namespace VissServer.ServiceMgr

open Go Utils Runs

/-- The signal to close the session of a subscription has been given. -/
def Signalled (h : CaptureHistory) (id : ℤ) : Prop :=
  ∃ y ∈ h, y.after.service.mgr.closeClSubId = id
  deriving Decidable

/-- A thread has run for the subscription. -/
def Captured (h : CaptureHistory) (id : ℤ) : Prop :=
  ∃ y ∈ h, ∃ t ∈ y.after.threads, t.subscriptionId = id

/-- A thread whose session is to close has seen the signal, or still finds it. -/
def SignalKept (h : CaptureHistory) (x : Capturing) : Prop :=
  ∀ t ∈ x.threads, Signalled h t.subscriptionId →
    t.closeClSession = true ∨ x.service.mgr.closeClSubId = t.subscriptionId
  deriving Decidable

def runningThreads (x : Capturing) (id : ℤ) : List CaptureThread :=
  x.threads.filter fun t => t.subscriptionId = id

/-- No unsubscribe is lost: the signals are kept, the entry of a session that is to close is
in the list as long as a thread of the session runs or has a pack under way, and the thread
counts are right. -/
structure ClosesSessions (h : CaptureHistory) (x : Capturing) : Prop where
  signals : SignalKept h x
  entries : ∀ id, Signalled h id → Captured h id →
    ((∃ e ∈ x.service.mgr.subscriptionList, e.subscriptionId = id) ↔
      runningThreads x id ≠ [] ∨ ∃ clPack ∈ x.CLChannel, clPack.subscriptionId = id)
  counts : ∀ e ∈ x.service.mgr.subscriptionList, isCurveLog e = true →
    e.subscriptionThreads = (runningThreads x e.subscriptionId).length

/-- A capture thread starts, or the loop takes a pack. -/
def startsOrCounts : CaptureEvent → Bool
  | .goCapture _ => true
  | .clPack => true
  | _ => false

def LeavesSessions (y : CaptureMove) : Prop := startsOrCounts y.event.2 = false
  deriving Decidable

/-- No thread has run, and no pack has been counted. -/
structure Idle (h : CaptureHistory) (x : Capturing) : Prop where
  never : ∀ y ∈ h, y.after.threads = []
  threads : x.threads = []
  counts : ∀ e ∈ x.service.mgr.subscriptionList, e.subscriptionThreads = 0

section

variable {cfg : Config} {m : Moment} {s s' : State} {h : CaptureHistory} {x x' : Capturing}
  {e : CaptureEvent} {y : CaptureMove} {output : Output}

theorem Idle.closesSessions (hx : Idle h x) : ClosesSessions h x where
  signals t ht := by
    rw [hx.threads] at ht
    simp at ht
  entries id _ hcaptured := by
    obtain ⟨y, hy, t, ht, -⟩ := hcaptured
    rw [hx.never y hy] at ht
    simp at ht
  counts e he _ := by
    rw [hx.counts e he, runningThreads, hx.threads]
    rfl

theorem handleTrigger_counts {r : Event} {messages : List GoString}
    (hr : ∀ id dataPack, r ≠ .clPack id dataPack)
    (h : handleTrigger cfg m s r = some (s', messages))
    (hcounts : ∀ e ∈ s.subscriptionList, e.subscriptionThreads = 0) :
    ∀ e ∈ s'.subscriptionList, e.subscriptionThreads = 0 := by
  cases r with
  | request => simp [handleTrigger] at h
  | dummyTick =>
    obtain ⟨rfl, -⟩ := Prod.mk.inj (Option.some.inj h)
    exact hcounts
  | interval id =>
    simp only [handleTrigger, intervalNotification, Option.bind_eq_bind,
      Option.bind_eq_some_iff, Option.some.injEq, Prod.mk.injEq] at h
    obtain ⟨_, -, _, -, _, -, _, -, rfl, -⟩ := h
    exact hcounts
  | clPack id dataPack => exact absurd rfl (hr id dataPack)
  | subscriptTick =>
    simp only [handleTrigger, Option.bind_eq_bind, Option.bind_eq_some_iff, Option.some.injEq,
      Prod.mk.injEq] at h
    obtain ⟨⟨l, _⟩, hentries, rfl, -⟩ := h
    intro e' he'
    have hflip := (checkEntries_some hentries).flip
    obtain ⟨e₁, he₁, latestDataPoint, rfl⟩ := Traversals.exists_of_forall₂ hflip e' he'
    exact hcounts e₁ he₁
  | capture =>
    rw [handleTrigger] at h
    split at h
    · obtain ⟨rfl, -⟩ := Prod.mk.inj (Option.some.inj h)
      exact hcounts
    · obtain ⟨rfl, -⟩ := Prod.mk.inj (Option.some.inj h)
      exact hcounts

theorem subscribed_threads {id : ℤ} {requestMap : GoMap Json} {e : SubscriptionState}
    (h : subscribed m id requestMap = some e) : e.subscriptionThreads = 0 := by
  unfold subscribed at h
  split at h
  · simp only [Option.bind_eq_bind, Option.bind_eq_some_iff, Option.some.injEq] at h
    obtain ⟨_, -, _, -, _, -, _, -, _, -, _, -, rfl⟩ := h
    rfl
  · simp at h

theorem Goroutine.threads_nil (h : Goroutine x e x') (hthreads : x.threads = [])
    (hcapture : ∀ server, e ≠ .goCapture server) : x'.threads = [] := by
  cases h with
  | goCapture => exact absurd rfl (hcapture _)
  | poll hthread =>
    rw [hthreads] at hthread
    simp at hthread
  | send hthread =>
    rw [hthreads] at hthread
    simp at hthread
  | _ => exact hthreads

theorem Goroutine.goCapture_some {index : ℕ} (h : Goroutine x (.goCapture index) x') :
    ∃ server paths, x.servers[index]? = some server ∧
      x'.threads = x.threads ++ [{ subscriptionId := server.subscriptionId, paths }] ∧
      x'.service.mgr.subscriptionList = x.service.mgr.subscriptionList := by
  cases h with
  | goCapture hserver => exact ⟨_, _, hserver, rfl, rfl⟩

theorem Idle.next (hx : Logged cfg h y.before) (hidle : Idle h y.before)
    (hy : y.Of (captureStep cfg)) (hleaves : LeavesSessions y) : Idle (y :: h) y.after := by
  obtain ⟨x, ⟨m, e⟩, x', output⟩ := y
  dsimp only at hx hidle ⊢
  have hcapture : ∀ server, e ≠ .goCapture server := by
    rintro server rfl
    simp [LeavesSessions, startsOrCounts] at hleaves
  have hclPack : e ≠ .clPack := by
    rintro rfl
    simp [LeavesSessions, startsOrCounts] at hleaves
  suffices hboth : x'.threads = [] ∧
      ∀ e ∈ x'.service.mgr.subscriptionList, e.subscriptionThreads = 0 by
    refine ⟨fun y hy => ?_, hboth.1, hboth.2⟩
    rcases List.mem_cons.mp hy with rfl | hy
    · exact hboth.1
    · exact hidle.never y hy
  rcases captureStep_some hy with ⟨r, service, hr, hpass, hafter⟩ | ⟨hgoroutine, -⟩
  · dsimp only at hafter hpass
    subst hafter
    refine ⟨hidle.threads, fun e' he' => ?_⟩
    rcases received_request hr with ⟨-, hrequest⟩ | ⟨request, rfl, rfl⟩
    · rcases loopPass_trigger hrequest hpass with ⟨messages, htrigger, -⟩ | ⟨hmgr, -⟩
      · refine handleTrigger_counts ?_ htrigger hidle.counts e' he'
        rintro id dataPack rfl
        cases e with
        | clPack => exact hclPack rfl
        | interval id =>
          simp only [received] at hr
          split at hr <;> simp at hr
        | _ => simp [received] at hr
      · refine hidle.counts e' ?_
        rw [← hmgr]
        exact he'
    · rcases (loopPass_request hpass).mem hx.fresh e' he' with hold | hnew
      · exact hidle.counts e' hold
      · exact subscribed_threads hnew
  · obtain ⟨n, hservice⟩ := hgoroutine.mgr
    dsimp only at hservice
    refine ⟨?_, ?_⟩
    · exact hgoroutine.threads_nil hidle.threads hcapture
    · intro e' he'
      rw [hservice] at he'
      exact hidle.counts e' he'

/-- A thread that starts is not counted, and a pack counts its entry below 0. -/
theorem not_closesSessions (hx : Logged cfg h y.before) (hy : y.Of (captureStep cfg))
    (hbusy : ¬ LeavesSessions y) : ¬ ClosesSessions (y :: h) y.after := by
  obtain ⟨x, ⟨m, e⟩, x', output⟩ := y
  dsimp only at hx ⊢
  intro hcloses
  apply hbusy
  cases e with
  | goCapture index =>
    exfalso
    rcases captureStep_some hy with ⟨r, service, hr, -⟩ | ⟨hgoroutine, -⟩
    · simp [received] at hr
    · obtain ⟨server, paths, hserver, hthreads, hlist⟩ := hgoroutine.goCapture_some
      have hsession : server.subscriptionId ∈ x.sessionIds := by
        unfold Capturing.sessionIds
        exact List.mem_append_left _
          (List.mem_append_left _ (List.mem_map_of_mem (List.mem_of_getElem? hserver)))
      obtain ⟨e, he, hid, hcurve⟩ := hx.sessions _ hsession
      have hcount := hcloses.counts e (hlist ▸ he) hcurve
      have hdown := hx.fresh.threads e he
      rw [runningThreads, hthreads, List.filter_append, hid] at hcount
      simp only [List.filter_singleton, decide_true, cond_true, List.length_append,
        List.length_singleton] at hcount
      omega
  | clPack =>
    exfalso
    obtain ⟨clPack, e, index, message, -, hget, -, hcurve, hmgr, -⟩ := clPack_step hx hy
    have hdown := hx.fresh.threads e (List.mem_of_getElem? hget)
    have hcounted : { e with subscriptionThreads := e.subscriptionThreads - 1 } ∈
        x'.service.mgr.subscriptionList := by
      rw [hmgr]
      refine List.mem_of_getElem? (i := index) ?_
      rw [countPack, List.getElem?_modify_eq, hget]
      rfl
    have hcount := hcloses.counts _ hcounted hcurve
    dsimp only at hcount
    omega
  | _ => rfl

end

/-- In a run no curve logging unsubscribe is lost if and only if no capture thread starts and
no pack is counted. -/
theorem closes_sessions_iff {cfg : Config} {h : CaptureHistory} {x : Capturing}
    (hrun : CaptureRun cfg h x) :
    Always (fun h y => ClosesSessions (y :: h) y.after) h ↔
      Always (fun _ y => LeavesSessions y) h := by
  refine hrun.always_iff (I := fun h x => Logged cfg h x ∧ Idle h x) ?_ ?_ ?_
  · rintro x rfl
    exact ⟨logged_initialCapturing cfg, by simp, rfl, by simp [initialCapturing, initialState]⟩
  · rintro h y ⟨hx, hidle⟩ hy
    constructor
    · intro hcloses
      by_contra hbusy
      exact not_closesSessions hx hy hbusy hcloses
    · intro hleaves
      exact (hidle.next hx hy hleaves).closesSessions
  · rintro h y ⟨hx, hidle⟩ hy hcloses
    have hleaves : LeavesSessions y := by
      by_contra hbusy
      exact not_closesSessions hx hy hbusy hcloses
    exact ⟨hx.next hy, hidle.next hx hy hleaves⟩

def unsubscribeRequestOf (subscriptionId : String) : GoString := str (
  "\x7b\"RouterId\":\"1?0\",\"action\":\"unsubscribe\",\"subscriptionId\":\"" ++ subscriptionId ++
  "\"\x7d")

/-- A subscription that is unsubscribed before its session has started a thread. -/
theorem unsubscribe_before_capture : ∃ h x, CaptureRun sampleConfig h x ∧ Signalled h 1 ∧
    Always (fun h y => ClosesSessions (y :: h) y.after) h := by
  obtain ⟨h, x, hrun, hsignalled, hleaves⟩ := exists_captureRun sampleConfig
    ([.request (curveLogRequest "1?0"), .populateDimLists 0 [[str "Vehicle.Speed"]],
      .request (unsubscribeRequestOf "1")].map fun e => (sampleMoment, e))
    (fun h => Signalled h 1 ∧ Always (fun _ y => LeavesSessions y) h) (by decide +kernel)
  exact ⟨h, x, hrun, hsignalled, (closes_sessions_iff hrun).mpr hleaves⟩

/-- Two sessions with a running thread each, which are unsubscribed one after the other
before the threads poll. -/
def unsubscribeBoth : List (Moment × CaptureEvent) :=
  [.request (curveLogRequest "1?0"), .request (curveLogRequest "1?1"),
    .populateDimLists 0 [[str "Vehicle.Speed"]], .populateDimLists 1 [[str "Vehicle.Speed"]],
    .returnSingleDp 0 (str "\x7b\x7d"), .goCapture 0, .returnSingleDp 1 (str "\x7b\x7d"), .goCapture 1,
    .request (unsubscribeRequestOf "1"), .request (unsubscribeRequestOf "2")].map
    fun e => (sampleMoment, e)

/-- The signal of the first session is overwritten by that of the second. -/
theorem unsubscribe_lost : ¬ ∀ cfg h x, CaptureRun cfg h x →
    Always (fun h y => ClosesSessions (y :: h) y.after) h := by
  intro hall
  obtain ⟨h, x, hrun, hlost⟩ := exists_captureRun sampleConfig unsubscribeBoth
    (fun h => ¬ Always (fun h y => SignalKept (y :: h) y.after) h) (by decide +kernel)
  exact hlost ((hall sampleConfig h x hrun).imp fun _ _ hcloses => hcloses.signals)

end VissServer.ServiceMgr
