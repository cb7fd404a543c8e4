import VissServer.Library.Traversals
import VissServer.ServiceMgr.Answers
import VissServer.ServiceMgr.Capturing
import VissServer.ServiceMgr.Killing

/-!
Curve logging notifications. The entry of a curve logging subscription stays in the list:
no request takes it out, and its thread count, which threadsChan never raises, does not come
down to 0 from above. So each pack finds the entry of its session.
-/
namespace VissServer.ServiceMgr

open Go Utils Runs

/-- A curve logging subscription with the id is in the list. -/
def Logs (s : State) (id : ℤ) : Prop :=
  ∃ e ∈ s.subscriptionList, e.subscriptionId = id ∧ isCurveLog e = true

/-- The subscription ids of the sessions and of their packs. -/
def Capturing.sessionIds (x : Capturing) : List ℤ :=
  x.servers.map CaptureServer.subscriptionId ++ x.threads.map CaptureThread.subscriptionId ++
    x.CLChannel.map CLPack.subscriptionId

/-- The entry that the subscribe request with the id made. -/
def subscriber : CaptureHistory → ℤ → Option SubscriptionState
  | [], _ => none
  | y :: h, id =>
      match y.event.2 with
      | .request request =>
          if id = y.before.service.mgr.subscriptionId then
            subscribed y.event.1 id (requestMapOf request)
          else subscriber h id
      | _ => subscriber h id

/-- A pack that the loop takes is sent on with the subscription id and the router id of the
subscription whose session sent it, and nothing is read outside the list. -/
def NotifiesSubscriber (h : CaptureHistory) (y : CaptureMove) : Prop :=
  y.event.2 = .clPack → ∀ clPack ∈ y.before.CLChannel.head?,
    y.after.service.status ≠ .panicked ∧
    ∃ e message, subscriber h clPack.subscriptionId = some e ∧
      e.subscriptionId = clPack.subscriptionId ∧ isCurveLog e = true ∧
      notification y.event.1 e clPack.dataPack = some message ∧
      y.output.notifications = [message]

/-- The invariant of the sessions: they belong to entries of the list, which are those that
the subscribe requests made. -/
structure Logged (cfg : Config) (h : CaptureHistory) (x : Capturing) : Prop where
  fresh : Fresh x.service.mgr
  servers : ∀ c ∈ x.service.mgr.curveLoggingServers, Logs x.service.mgr c.subscriptionId
  sessions : ∀ id ∈ x.sessionIds, Logs x.service.mgr id
  subscribers : ∀ e ∈ x.service.mgr.subscriptionList,
    ∃ e₀, subscriber h e.subscriptionId = some e₀ ∧ SameSubscription e₀ e
  unstarted : cfg.stateDbNone → x.service.mgr.subscriptionList = []

section

variable {cfg : Config} {m : Moment} {s s' : State} {requestMap : GoMap Json}

theorem SameSubscription.trans {e₁ e₂ e₃ : SubscriptionState} (h₁ : SameSubscription e₁ e₂)
    (h₂ : SameSubscription e₂ e₃) : SameSubscription e₁ e₃ := by
  refine ⟨h₂.1.trans h₁.1, ?_⟩
  rw [h₂.2, h₁.2]

/-- A curve logging entry is not deactivated out of the list. -/
theorem Deactivations.keeps {P : State → SubscriptionState → Prop} (h : Deactivations P s s')
    {e : SubscriptionState} (he : e ∈ s.subscriptionList) (hcurve : isCurveLog e = true) :
    e ∈ s'.subscriptionList := by
  induction h with
  | none => exact he
  | @step s s₁ s' index e₁ hget _ hentry _ ih =>
    refine ih ?_
    have hlist := (deactivateEntry_some hget hentry).1
    split at hlist
    · rw [hlist]
      exact he
    · next hplain =>
      rcases List.mem_cons.mp (hlist.mem_iff.mpr he) with rfl | hkept
      · exact absurd hcurve hplain
      · exact hkept

theorem Effect.keeps (h : Effect m s requestMap s') {e : SubscriptionState}
    (he : e ∈ s.subscriptionList) (hcurve : isCurveLog e = true) : e ∈ s'.subscriptionList := by
  cases h with
  | quiet => exact he
  | subscribe _ _ _ _ _ _ hactivate =>
    dsimp only
    rw [(activateIfIntervalOrCL_some hactivate).1]
    exact List.mem_append_left _ he
  | unsubscribe _ _ hdeactivations => exact hdeactivations.keeps he hcurve
  | kill _ _ hdeactivations => exact hdeactivations.keeps he hcurve
  | cancel _ _ _ _ hdeactivations => exact hdeactivations.keeps he hcurve

theorem Effect.logs (h : Effect m s requestMap s') {id : ℤ} (hlogs : Logs s id) :
    Logs s' id := by
  obtain ⟨e, he, hid, hcurve⟩ := hlogs
  exact ⟨e, h.keeps he hcurve, hid, hcurve⟩

theorem Logs.trigger {e : Event} {messages : List GoString} {id : ℤ} (hs : Fresh s)
    (h : handleTrigger cfg m s e = some (s', messages)) (hlogs : Logs s id) : Logs s' id := by
  obtain ⟨e, he, hid, hcurve⟩ := hlogs
  obtain ⟨e', he', -, hsame⟩ := Traversals.exists_of_forall₂ (handleTrigger_some hs.threads h).1 e he
  refine ⟨e', he', ?_, ?_⟩
  · rw [hsame]
    exact hid
  · rw [hsame]
    exact hcurve

/-- A server is started for the filters of a curve logging subscription. -/
theorem activateIfIntervalOrCL_servers {filterList : List FilterObject} {id : ℤ}
    {paths : List GoString} (h : activateIfIntervalOrCL s filterList id paths = some s') :
    ∀ c ∈ s'.curveLoggingServers, c ∈ s.curveLoggingServers ∨
      (c.subscriptionId = id ∧ getOpType filterList (str "curvelog") = true) := by
  induction filterList with
  | nil =>
    obtain rfl := Option.some.inj h
    exact fun c hc => .inl hc
  | cons f filterList ih =>
    rw [activateIfIntervalOrCL] at h
    split at h
    · dsimp only at h
      split at h
      · unfold activateInterval at h
        split at h
        · obtain rfl := Option.some.inj h
          exact fun c hc => .inl hc
        · dsimp only at h
          split at h
          · simp at h
          · obtain rfl := Option.some.inj h
            exact fun c hc => .inl hc
      · obtain rfl := Option.some.inj h
        exact fun c hc => .inl hc
    · split at h
      · next hcurvelog =>
        obtain rfl := Option.some.inj h
        intro c hc
        rcases List.mem_append.mp hc with hc | hc
        · exact .inl hc
        · rw [List.mem_singleton.mp hc]
          exact .inr ⟨rfl, by simp [getOpType, hcurvelog]⟩
      · intro c hc
        refine (ih h c hc).imp_right fun hnew => ⟨hnew.1, ?_⟩
        have hrest : filterList.any (fun f => f.type = str "curvelog") = true := hnew.2
        simp [getOpType, hrest]

theorem Deactivations.servers {P : State → SubscriptionState → Prop}
    (h : Deactivations P s s') : s'.curveLoggingServers = s.curveLoggingServers := by
  induction h with
  | none => rfl
  | step hget _ hentry _ ih => rw [ih, (deactivateEntry_some hget hentry).2.2.1]

theorem Effect.servers (h : Effect m s requestMap s')
    (hservers : ∀ c ∈ s.curveLoggingServers, Logs s c.subscriptionId) :
    ∀ c ∈ s'.curveLoggingServers, Logs s' c.subscriptionId := by
  intro c hc
  have hold : c ∈ s.curveLoggingServers → Logs s' c.subscriptionId :=
    fun hc => h.logs (hservers c hc)
  cases h with
  | quiet => exact hservers c hc
  | unsubscribe _ _ hdeactivations => exact hold (hdeactivations.servers ▸ hc)
  | kill _ _ hdeactivations => exact hold (hdeactivations.servers ▸ hc)
  | @cancel _ _ _ errorResponseMap _ _ _ _ _ hdeactivations =>
    have hsame : s'.curveLoggingServers = s.curveLoggingServers := hdeactivations.servers
    exact hold (hsame ▸ hc)
  | @subscribe routerId gatingId paths path rest filter errorResponseMap s₁ _ _ _ _ _ _ hactivate =>
    rcases activateIfIntervalOrCL_servers hactivate c hc with hc | ⟨hid, hcurve⟩
    · exact hold hc
    · refine ⟨newEntry m s routerId gatingId path rest (unpackFilter m.range filter), ?_,
        hid.symm, hcurve⟩
      dsimp only
      rw [(activateIfIntervalOrCL_some hactivate).1]
      exact List.mem_append_right _ (List.mem_singleton_self _)

variable {x x' : Capturing} {e : CaptureEvent} {output : Output}

theorem mem_putThread {threads : List CaptureThread} {index : ℕ} {thread t : CaptureThread}
    (h : t ∈ putThread threads index thread) : t ∈ threads ∨ t = thread := by
  unfold putThread at h
  split at h
  · exact .inl (List.mem_of_mem_eraseIdx h)
  · exact List.mem_or_eq_of_mem_set h

/-- The goroutines start no sessions for other subscriptions. -/
theorem Goroutine.sessionIds (h : Goroutine x e x') : ∀ id ∈ x'.sessionIds, id ∈ x.sessionIds := by
  have hset : ∀ {id : ℤ} {index : ℕ} {server server' : CaptureServer},
      id ∈ (x.servers.set index server').map CaptureServer.subscriptionId →
      x.servers[index]? = some server → server'.subscriptionId = server.subscriptionId →
        id ∈ x.servers.map CaptureServer.subscriptionId := by
    intro id index server server' hmem hserver hid
    obtain ⟨c, hc, rfl⟩ := List.mem_map.mp hmem
    rcases List.mem_or_eq_of_mem_set hc with hc | rfl
    · exact List.mem_map_of_mem hc
    · rw [hid]
      exact List.mem_map_of_mem (List.mem_of_getElem? hserver)
  have hput : ∀ {id : ℤ} {index : ℕ} {thread thread' : CaptureThread},
      id ∈ (putThread x.threads index thread').map CaptureThread.subscriptionId →
      x.threads[index]? = some thread → thread'.subscriptionId = thread.subscriptionId →
        id ∈ x.threads.map CaptureThread.subscriptionId := by
    intro id index thread thread' hmem hthread hid
    obtain ⟨t, ht, rfl⟩ := List.mem_map.mp hmem
    rcases mem_putThread ht with ht | rfl
    · exact List.mem_map_of_mem ht
    · rw [hid]
      exact List.mem_map_of_mem (List.mem_of_getElem? hthread)
  intro id hmem
  unfold Capturing.sessionIds at hmem ⊢
  cases h with
  | tick => exact hmem
  | populateDimLists hserver =>
    simp only [List.mem_append] at hmem ⊢
    rcases hmem with (h | h) | h
    · exact .inl (.inl (hset h hserver rfl))
    · exact .inl (.inr h)
    · exact .inr h
  | exhausted hserver =>
    simp only [List.mem_append] at hmem ⊢
    rcases hmem with (h | h) | h
    · exact .inl (.inl (hset h hserver rfl))
    · exact .inl (.inr h)
    · exact .inr h
  | @returnSingleDp index server dataPack hserver =>
    simp only [List.map_append, List.map_singleton, List.mem_append, List.mem_singleton] at hmem ⊢
    rcases hmem with (h | h) | h | rfl
    · exact .inl (.inl (hset h hserver rfl))
    · exact .inl (.inr h)
    · exact .inr h
    · exact .inl (.inl (List.mem_map_of_mem (List.mem_of_getElem? hserver)))
  | @goCapture index server paths dimList hserver =>
    simp only [List.map_append, List.map_singleton, List.mem_append, List.mem_singleton] at hmem ⊢
    rcases hmem with (h | h | rfl) | h
    · exact .inl (.inl (hset h hserver rfl))
    · exact .inl (.inr h)
    · exact .inl (.inl (List.mem_map_of_mem (List.mem_of_getElem? hserver)))
    · exact .inr h
  | poll hthread =>
    simp only [List.mem_append] at hmem ⊢
    rcases hmem with (h | h) | h
    · exact .inl (.inl h)
    · exact .inl (.inr (hput h hthread rfl))
    · exact .inr h
  | @send index thread dataPack dataPacks hthread =>
    simp only [List.map_append, List.map_singleton, List.mem_append, List.mem_singleton] at hmem ⊢
    rcases hmem with (h | h) | h | rfl
    · exact .inl (.inl h)
    · exact .inl (.inr (hput h hthread rfl))
    · exact .inr h
    · exact .inl (.inr (List.mem_map_of_mem (List.mem_of_getElem? hthread)))

/-- A pass of the loop starts sessions for the servers of its state. -/
theorem Capturing.sessionIds_after {service : Service} {id : ℤ}
    (h : id ∈ (x.after e service).sessionIds) :
    id ∈ x.sessionIds ∨ ∃ c ∈ service.mgr.curveLoggingServers, c.subscriptionId = id := by
  unfold Capturing.sessionIds at h ⊢
  simp only [List.mem_append, Capturing.after, List.map_append] at h ⊢
  rcases h with ((h | h) | h) | h
  · exact .inl (.inl (.inl h))
  · simp only [startedServers, List.map_map, List.mem_map] at h
    obtain ⟨c, hc, hid⟩ := h
    exact .inr ⟨c, List.mem_of_mem_drop hc, hid⟩
  · exact .inl (.inl (.inr h))
  · refine .inl (.inr ?_)
    split at h
    · rw [List.map_tail] at h
      exact List.mem_of_mem_tail h
    · exact h

theorem received_request {r : Event} (h : received x e = some r) :
    (∀ request, e ≠ .request request) ∧ (∀ request, r ≠ .request request) ∨
      ∃ request, e = .request request ∧ r = .request request := by
  cases e with
  | request request => exact .inr ⟨request, rfl, (Option.some.inj h).symm⟩
  | dummyTick =>
    obtain rfl := Option.some.inj h
    exact .inl ⟨nofun, nofun⟩
  | interval id =>
    simp only [received] at h
    split at h
    · obtain rfl := Option.some.inj h
      exact .inl ⟨nofun, nofun⟩
    · simp at h
  | clPack =>
    obtain ⟨clPack, -, rfl⟩ := Option.map_eq_some_iff.mp h
    exact .inl ⟨nofun, nofun⟩
  | subscriptTick =>
    obtain rfl := Option.some.inj h
    exact .inl ⟨nofun, nofun⟩
  | _ => simp [received] at h

variable {h : CaptureHistory}

theorem subscriber_cons_of_ne {y : CaptureMove} {id : ℤ}
    (hy : (∀ request, y.event.2 ≠ .request request) ∨
      id ≠ y.before.service.mgr.subscriptionId) :
    subscriber (y :: h) id = subscriber h id := by
  rw [subscriber]
  split
  · next request hrequest =>
    rcases hy with hy | hy
    · exact absurd hrequest (hy request)
    · rw [if_neg hy]
  · rfl

/-- What a request leaves in the list are old entries and the one that it makes. -/
theorem Requested.mem {service : Service} {request : GoString} (hs : Fresh s)
    (h : Requested cfg m s request service) : ∀ e ∈ service.mgr.subscriptionList,
      e ∈ s.subscriptionList ∨
        subscribed m s.subscriptionId (requestMapOf request) = some e := by
  intro e he
  cases h with
  | back hending _ =>
    have hentries := (handleRequest_entries hs.nodup hending).1
    have hmem : e ∈ entries _ := Multiset.mem_coe.mpr he
    rw [hentries, Multiset.mem_add] at hmem
    rcases hmem with hmem | hmem
    · exact .inl (Multiset.mem_coe.mp (Multiset.mem_of_mem_filter hmem))
    · rw [Multiset.mem_coe, Option.mem_toList] at hmem
      exact .inr hmem
  | caught => exact .inl ((killLoopState_deactivations _ _ s).mem e he)
  | panicked => exact .inl he

theorem loopPass_unstarted {y y' : Service} {r : Event} (hnone : cfg.stateDbNone = true)
    (h : loopPass cfg m y r = some (y', output)) : y'.mgr = y.mgr ∧ y'.status = .panicked := by
  rw [loopPass, if_pos hnone] at h
  split at h
  · rw [← (Prod.mk.inj (Option.some.inj h)).1]
    exact ⟨rfl, rfl⟩
  · simp at h

theorem Logged.pass (hx : Logged cfg h x) {r : Event} {service : Service}
    (hr : received x e = some r) (hpass : loopPass cfg m x.service r = some (service, output)) :
    Logged cfg (⟨x, (m, e), x.after e service, output⟩ :: h) (x.after e service) := by
  have hlogs : ∀ id, Logs x.service.mgr id → Logs service.mgr id := by
    intro id hid
    rcases loopPass_mgr hpass with hmgr | ⟨request, -, heffect⟩ | ⟨messages, htrigger⟩
    · rw [hmgr]
      exact hid
    · exact heffect.logs hid
    · exact hid.trigger hx.fresh htrigger
  have hservers : ∀ c ∈ service.mgr.curveLoggingServers, Logs service.mgr c.subscriptionId := by
    rcases loopPass_mgr hpass with hmgr | ⟨request, -, heffect⟩ | ⟨messages, htrigger⟩
    · rw [hmgr]
      exact hx.servers
    · exact heffect.servers hx.servers
    · intro c hc
      rw [(handleTrigger_some hx.fresh.threads htrigger).2.2.2] at hc
      exact hlogs _ (hx.servers c hc)
  refine ⟨?_, hservers, ?_, ?_, ?_⟩
  · rcases loopPass_mgr hpass with hmgr | ⟨request, -, heffect⟩ | ⟨messages, htrigger⟩
    · exact hmgr ▸ hx.fresh
    · exact hx.fresh.effect heffect
    · exact hx.fresh.trigger htrigger
  · intro id hid
    rcases Capturing.sessionIds_after hid with hold | ⟨c, hc, rfl⟩
    · exact hlogs id (hx.sessions id hold)
    · exact hservers c hc
  · have hold : ∀ e₁ ∈ x.service.mgr.subscriptionList, ∀ e₂, SameSubscription e₁ e₂ →
        ∃ e₀, subscriber (⟨x, (m, e), x.after e service, output⟩ :: h) e₂.subscriptionId =
          some e₀ ∧ SameSubscription e₀ e₂ := by
      intro e₁ he₁ e₂ hsame
      obtain ⟨e₀, he₀, hfirst⟩ := hx.subscribers e₁ he₁
      have hid : e₂.subscriptionId = e₁.subscriptionId := by rw [hsame.2]
      have hlt := hx.fresh.entries e₁ he₁
      refine ⟨e₀, ?_, hfirst.trans hsame⟩
      rw [hid, subscriber_cons_of_ne (.inr hlt.ne)]
      exact he₀
    intro e' he'
    rcases received_request hr with ⟨-, hrequest⟩ | ⟨request, rfl, rfl⟩
    · rcases loopPass_trigger hrequest hpass with ⟨messages, htrigger, -⟩ | ⟨hmgr, -⟩
      · obtain ⟨e₁, he₁, hsame⟩ :=
          (sameSubscriptions (handleTrigger_some hx.fresh.threads htrigger).1).2 e' he'
        exact hold e₁ he₁ e' hsame
      · refine hold e' ?_ e' (.refl e')
        rw [← hmgr]
        exact he'
    · rcases (loopPass_request hpass).mem hx.fresh e' he' with hmem | hnew
      · exact hold e' hmem e' (.refl e')
      · refine ⟨e', ?_, .refl e'⟩
        have hid := subscribed_id hnew
        rw [subscriber, hid]
        simpa using hnew
  · intro hnone
    exact (congrArg _ (loopPass_unstarted hnone hpass).1).trans (hx.unstarted hnone)

theorem Logged.goroutine (hx : Logged cfg h x) (hgoroutine : Goroutine x e x') :
    Logged cfg (⟨x, (m, e), x', output⟩ :: h) x' := by
  obtain ⟨n, hservice⟩ := hgoroutine.mgr
  have hlist : x'.service.mgr.subscriptionList = x.service.mgr.subscriptionList := by
    rw [hservice]
  have hlogs : ∀ id, Logs x'.service.mgr id ↔ Logs x.service.mgr id := by
    intro id
    unfold Logs
    rw [hlist]
  have hrequest : ∀ request, e ≠ .request request := by
    rintro request rfl
    cases hgoroutine
  refine ⟨?_, ?_, ?_, ?_, ?_⟩
  · rw [hservice]
    exact ⟨hx.fresh.positive, hx.fresh.entries, hx.fresh.nodup, hx.fresh.threads,
      hx.fresh.tickers, hx.fresh.servers⟩
  · intro c hc
    rw [hlogs]
    rw [hservice] at hc
    exact hx.servers c hc
  · intro id hid
    rw [hlogs]
    exact hx.sessions id (hgoroutine.sessionIds id hid)
  · intro e' he'
    rw [hlist] at he'
    rw [subscriber_cons_of_ne (.inl hrequest)]
    exact hx.subscribers e' he'
  · intro hnone
    rw [hlist]
    exact hx.unstarted hnone

theorem Logged.next {y : CaptureMove} (hx : Logged cfg h y.before)
    (hy : y.Of (captureStep cfg)) : Logged cfg (y :: h) y.after := by
  obtain ⟨x, ⟨m, e⟩, x', output⟩ := y
  rcases captureStep_some hy with ⟨r, service, hr, hpass, hafter⟩ | ⟨hgoroutine, -⟩
  · dsimp only at hafter
    subst hafter
    exact hx.pass hr hpass
  · exact hx.goroutine hgoroutine

theorem logged_initialCapturing (cfg : Config) : Logged cfg [] initialCapturing where
  fresh := fresh_initialState
  servers := by simp [initialCapturing, initialState]
  sessions := by simp [Capturing.sessionIds, initialCapturing]
  subscribers := by simp [initialCapturing, initialState]
  unstarted _ := rfl

theorem CaptureRun.logged (hrun : CaptureRun cfg h x) : Logged cfg h x := by
  refine hrun.invariant (I := fun h x => Logged cfg h x) ?_ ?_
  · rintro x rfl
    exact logged_initialCapturing cfg
  · exact fun h y hx hy => hx.next hy

/-- The index of an id is that of its entry. -/
theorem getSubcriptionStateIndex_mem {e : SubscriptionState} (hs : DistinctIds s)
    (he : e ∈ s.subscriptionList) : ∃ index,
      getSubcriptionStateIndex e.subscriptionId s.subscriptionList = some index ∧
        s.subscriptionList[index]? = some e := by
  cases hindex : getSubcriptionStateIndex e.subscriptionId s.subscriptionList with
  | none =>
    have hself := List.findIdx?_eq_none_iff.mp hindex e he
    simp at hself
  | some index =>
    obtain ⟨hlt, hid, -⟩ := List.findIdx?_eq_some_iff_getElem.mp hindex
    refine ⟨index, rfl, ?_⟩
    rw [List.getElem?_eq_getElem hlt, Option.some.injEq]
    exact List.inj_on_of_nodup_map hs (List.getElem_mem hlt) he (by simpa using hid)

/-- The entry of the pack is notified: its count is below 0, so that it is not removed. -/
theorem curveLoggingNotification_mem {e : SubscriptionState} (hs : Fresh s)
    (he : e ∈ s.subscriptionList) (dataPack : GoString) :
    ∃ index message, s.subscriptionList[index]? = some e ∧
      curveLoggingNotification m s e.subscriptionId dataPack =
        some (countPack s index, [message]) ∧
      notification m e dataPack = some message := by
  obtain ⟨index, hindex, hget⟩ := getSubcriptionStateIndex_mem hs.nodup he
  obtain ⟨message, hmessage⟩ := Option.isSome_iff_exists.mp
    (addPackage_finalizeMessage (subscriptionMapOf m e) (str "data") dataPack)
  refine ⟨index, message, hget, ?_, hmessage⟩
  have hcounted : (countPack s index).subscriptionList[index]? =
      some { e with subscriptionThreads := e.subscriptionThreads - 1 } := by
    rw [countPack, List.getElem?_modify_eq, hget]
    rfl
  have hthreads := hs.threads e he
  have hkept : ¬ (e.subscriptionId = (countPack s index).closeClSubId ∧
      e.subscriptionThreads - 1 = 0) := by
    rintro ⟨-, hzero⟩
    omega
  unfold curveLoggingNotification
  simp only [hindex, Option.bind_eq_bind, Option.bind_some, hcounted, if_neg hkept]
  have hsame : notification m { e with subscriptionThreads := e.subscriptionThreads - 1 }
      dataPack = some message := hmessage
  rw [hsame]
  rfl

theorem SameSubscription.notification {e₀ e : SubscriptionState} (h : SameSubscription e₀ e)
    (dataPack : GoString) : notification m e₀ dataPack = notification m e dataPack := by
  rw [h.2]
  rfl

/-- A pack that the loop takes counts the entry of its session, and notifies it. -/
theorem clPack_step (hx : Logged cfg h x)
    (hstep : captureStep cfg x (m, .clPack) = some (x', output)) :
    ∃ clPack e index message, x.CLChannel.head? = some clPack ∧
      x.service.mgr.subscriptionList[index]? = some e ∧
      e.subscriptionId = clPack.subscriptionId ∧ isCurveLog e = true ∧
      x'.service.mgr = countPack x.service.mgr index ∧ x'.service.status ≠ .panicked ∧
      notification m e clPack.dataPack = some message ∧ output.notifications = [message] := by
  rcases captureStep_some hstep with ⟨r, service, hr, hpass, rfl⟩ | ⟨hgoroutine, -⟩
  · obtain ⟨clPack, hclPack, rfl⟩ := Option.map_eq_some_iff.mp hr
    have hsession : clPack.subscriptionId ∈ x.sessionIds := by
      unfold Capturing.sessionIds
      exact List.mem_append_right _ (List.mem_map_of_mem (List.mem_of_head? hclPack))
    obtain ⟨e, he, hid, hcurve⟩ := hx.sessions _ hsession
    obtain ⟨index, message, hget, hnotify, hmessage⟩ :=
      curveLoggingNotification_mem (m := m) hx.fresh he clPack.dataPack
    rw [hid] at hnotify
    have hhandle : handleTrigger cfg m x.service.mgr
        (.clPack clPack.subscriptionId clPack.dataPack) =
          some (countPack x.service.mgr index, [message]) := hnotify
    have hrequest : ∀ request, Event.clPack clPack.subscriptionId clPack.dataPack ≠
        .request request := nofun
    rcases loopPass_trigger hrequest hpass with ⟨messages, hmessages, hstatus, houtput⟩ |
      ⟨-, -, hnone | hpanic⟩
    · obtain ⟨hmgr, hlist⟩ := Prod.mk.inj (Option.some.inj (hmessages.symm.trans hhandle))
      refine ⟨clPack, e, index, message, hclPack, hget, hid, hcurve, hmgr, hstatus, hmessage, ?_⟩
      rw [houtput, hlist]
    · rw [hx.unstarted hnone] at he
      simp at he
    · rw [hpanic] at hhandle
      simp at hhandle
  · cases hgoroutine

theorem notifiesSubscriber {y : CaptureMove} (hx : Logged cfg h y.before)
    (hy : y.Of (captureStep cfg)) : NotifiesSubscriber h y := by
  obtain ⟨x, ⟨m, e⟩, x', output⟩ := y
  intro hevent clPack hclPack
  dsimp only at hx hevent hclPack ⊢
  subst hevent
  obtain ⟨clPack', e, index, message, hclPack', hget, hid, hcurve, -, hstatus, hmessage,
    houtput⟩ := clPack_step hx hy
  have hsame : clPack' = clPack := Option.some.inj (hclPack'.symm.trans hclPack)
  subst hsame
  obtain ⟨e₀, he₀, hsubscribed⟩ := hx.subscribers e (List.mem_of_getElem? hget)
  have hid₀ : e₀.subscriptionId = e.subscriptionId := by rw [hsubscribed.2]
  have hcurve₀ : isCurveLog e₀ = isCurveLog e := by
    rw [hsubscribed.2]
    rfl
  refine ⟨hstatus, e₀, message, ?_, hid₀.trans hid, hcurve₀.trans hcurve, ?_, houtput⟩
  · rw [← hid]
    exact he₀
  · rw [hsubscribed.notification]
    exact hmessage

end

/-- In every run each curve logging notification goes to the subscription whose session
sent its pack. -/
theorem curve_log_notifications {cfg : Config} {h : CaptureHistory} {x : Capturing}
    (hrun : CaptureRun cfg h x) : Always NotifiesSubscriber h := by
  induction hrun with
  | start => trivial
  | next hrun hy ih => exact ⟨notifiesSubscriber (CaptureRun.logged hrun) hy, ih⟩

/-- A subscribe request for a curve logging subscription, as the core forwards it. -/
def curveLogRequest (routerId : String) : GoString := str (
  "\x7b\"RouterId\":\"" ++ routerId ++ "\",\"action\":\"subscribe\",\"path\":\"Vehicle.Speed\"," ++
  "\"filter\":\x7b\"type\":\"curvelog\",\"parameter\":" ++
  "\x7b\"maxerr\":\"0.5\",\"bufsize\":\"10\"\x7d\x7d\x7d")

/-- Two sessions subscribe, and the first data point of the second one is captured. -/
def captureEvents : List (Moment × CaptureEvent) :=
  [.request (curveLogRequest "1?0"), .request (curveLogRequest "1?1"),
    .populateDimLists 1 [[str "Vehicle.Speed"]],
    .returnSingleDp 1 (str "\x7b\"path\":\"Vehicle.Speed\"\x7d"), .clPack].map
    fun e => (sampleMoment, e)

def capturedNotification : GoString := str (
  "\x7b\"RouterId\":\"1?1\",\"action\":\"subscription\",\"subscriptionId\":\"2\"," ++
  "\"ts\":\"2024-05-01T08:00:00Z\", \"data\":\x7b\"path\":\"Vehicle.Speed\"\x7d\x7d")

/-- It is sent to the second session. -/
theorem curve_log_notification_sent : ∃ h x, CaptureRun sampleConfig h x ∧
    h.head?.map (fun y => y.output.notifications) = some [capturedNotification] ∧
    Always NotifiesSubscriber h := by
  obtain ⟨h, x, hrun, hsent⟩ := exists_captureRun sampleConfig captureEvents
    (fun h => h.head?.map (fun y => y.output.notifications) = some [capturedNotification])
    (by decide +kernel)
  exact ⟨h, x, hrun, hsent, curve_log_notifications hrun⟩

end VissServer.ServiceMgr
