import Mathlib.Data.List.Perm.Subperm
import VissServer.ServiceMgr.Effects

/-!
What holds of the service manager in every run: the subscription ids in its list are
distinct, and they, the ids in the ticker table and the ids of the curve logging servers
are below the next id.
-/
namespace VissServer.ServiceMgr

open Go Utils Runs

structure Fresh (s : State) : Prop where
  positive : 0 < s.subscriptionId
  entries : ∀ e ∈ s.subscriptionList, e.subscriptionId < s.subscriptionId
  nodup : (s.subscriptionList.map SubscriptionState.subscriptionId).Nodup
  /-- The thread counts are only counted down. -/
  threads : ∀ e ∈ s.subscriptionList, e.subscriptionThreads ≤ 0
  tickers : ∀ i, s.tickerIndexList i < s.subscriptionId
  servers : ∀ c ∈ s.curveLoggingServers, c.subscriptionId < s.subscriptionId

theorem fresh_initialState : Fresh initialState where
  positive := by decide
  entries := by simp [initialState]
  nodup := by simp [initialState]
  threads := by simp [initialState]
  tickers _ := Int.zero_lt_one
  servers := by simp [initialState]

section

variable {cfg : Config} {m : Moment} {s s' : State} {requestMap : GoMap Json}

theorem deactivateInterval_some {id : ℤ} (h : deactivateInterval s id = some s') :
    s'.subscriptionList = s.subscriptionList ∧ s'.subscriptionId = s.subscriptionId ∧
      s'.curveLoggingServers = s.curveLoggingServers ∧ s'.closeClSubId = s.closeClSubId ∧
      ∀ i, s'.tickerIndexList i = s.tickerIndexList i ∨ s'.tickerIndexList i = 0 := by
  simp only [deactivateInterval, Option.bind_eq_bind, Option.bind_eq_some_iff,
    Option.some.injEq] at h
  obtain ⟨i, -, ticker, -, rfl⟩ := h
  refine ⟨rfl, rfl, rfl, rfl, fun j => ?_⟩
  by_cases hij : j = i
  · subst hij
    simp
  · simp [hij]

theorem stopTrigger_some {e : SubscriptionState} (h : stopTrigger s e = some s') :
    s'.subscriptionList = s.subscriptionList ∧ s'.subscriptionId = s.subscriptionId ∧
      s'.curveLoggingServers = s.curveLoggingServers ∧
      ∀ i, s'.tickerIndexList i = s.tickerIndexList i ∨ s'.tickerIndexList i = 0 := by
  unfold stopTrigger at h
  split at h
  · obtain ⟨hlist, hid, hservers, -, htickers⟩ := deactivateInterval_some h
    exact ⟨hlist, hid, hservers, htickers⟩
  · split at h
    · rw [← Option.some.inj h]
      exact ⟨rfl, rfl, rfl, fun _ => .inl rfl⟩
    · rw [← Option.some.inj h]
      exact ⟨rfl, rfl, rfl, fun _ => .inl rfl⟩

/-- A curve logging entry stays in the list, any other is taken out of it. -/
theorem deactivateEntry_some {index : ℕ} {e : SubscriptionState}
    (hget : s.subscriptionList[index]? = some e) (h : deactivateEntry s index e = some s') :
    (if getOpType e.filterList (str "curvelog") then s'.subscriptionList = s.subscriptionList
      else (e :: s'.subscriptionList).Perm s.subscriptionList) ∧
      s'.subscriptionId = s.subscriptionId ∧
      s'.curveLoggingServers = s.curveLoggingServers ∧
      ∀ i, s'.tickerIndexList i = s.tickerIndexList i ∨ s'.tickerIndexList i = 0 := by
  rw [deactivateEntry, Option.map_eq_some_iff] at h
  obtain ⟨s₁, hstop, rfl⟩ := h
  obtain ⟨hlist, hrest⟩ := stopTrigger_some hstop
  split
  · exact ⟨hlist, hrest⟩
  · refine ⟨?_, hrest⟩
    dsimp only
    rw [hlist]
    exact removeFromsubscriptionList_perm hget

theorem deactivateEntry_subperm {index : ℕ} {e : SubscriptionState}
    (hget : s.subscriptionList[index]? = some e) (h : deactivateEntry s index e = some s') :
    s'.subscriptionList.Subperm s.subscriptionList := by
  have hlist := (deactivateEntry_some hget h).1
  split at hlist
  · rw [hlist]
  · exact (List.sublist_cons_self e _).subperm.trans hlist.subperm

theorem nodup_ids_of_subperm {l l' : List SubscriptionState} (h : l'.Subperm l)
    (hl : (l.map SubscriptionState.subscriptionId).Nodup) :
    (l'.map SubscriptionState.subscriptionId).Nodup := by
  obtain ⟨entries, hperm, hentries⟩ := h
  exact (hperm.map _).nodup_iff.mp (hl.sublist (hentries.map _))

theorem Fresh.deactivateEntry (hs : Fresh s) {index : ℕ} {e : SubscriptionState}
    (hget : s.subscriptionList[index]? = some e)
    (h : ServiceMgr.deactivateEntry s index e = some s') : Fresh s' := by
  obtain ⟨-, hid, hservers, htickers⟩ := deactivateEntry_some hget h
  have hsub := deactivateEntry_subperm hget h
  refine ⟨hid ▸ hs.positive, ?_, ?_, ?_, ?_, ?_⟩
  · intro e' he'
    rw [hid]
    exact hs.entries e' (hsub.subset he')
  · exact nodup_ids_of_subperm hsub hs.nodup
  · exact fun e' he' => hs.threads e' (hsub.subset he')
  · intro i
    rw [hid]
    rcases htickers i with hi | hi
    · rw [hi]
      exact hs.tickers i
    · rw [hi]
      exact hs.positive
  · rw [hid, hservers]
    exact hs.servers

theorem Fresh.deactivations (hs : Fresh s) {P : State → SubscriptionState → Prop}
    (h : Deactivations P s s') : Fresh s' := by
  induction h with
  | none => exact hs
  | step hget _ hentry _ ih => exact ih (hs.deactivateEntry hget hentry)

theorem activateIfIntervalOrCL_some {filterList : List FilterObject} {id : ℤ}
    {paths : List GoString} (h : activateIfIntervalOrCL s filterList id paths = some s') :
    s'.subscriptionList = s.subscriptionList ∧
      (∀ i, s'.tickerIndexList i = s.tickerIndexList i ∨ s'.tickerIndexList i = id) ∧
      ∀ c ∈ s'.curveLoggingServers, c ∈ s.curveLoggingServers ∨ c.subscriptionId = id := by
  induction filterList with
  | nil =>
    rw [activateIfIntervalOrCL, Option.some.injEq] at h
    subst h
    exact ⟨rfl, fun _ => .inl rfl, fun _ hc => .inl hc⟩
  | cons f filterList ih =>
    rw [activateIfIntervalOrCL] at h
    split at h
    · dsimp only at h
      split at h
      · unfold activateInterval at h
        split at h
        · rw [← Option.some.inj h]
          exact ⟨rfl, fun _ => .inl rfl, fun _ hc => .inl hc⟩
        · next i _ =>
          dsimp only at h
          split at h
          · simp at h
          · rw [← Option.some.inj h]
            refine ⟨rfl, fun j => ?_, fun _ hc => .inl hc⟩
            by_cases hij : j = i
            · subst hij
              simp
            · simp [hij]
      · rw [← Option.some.inj h]
        exact ⟨rfl, fun _ => .inl rfl, fun _ hc => .inl hc⟩
    · split at h
      · rw [← Option.some.inj h]
        refine ⟨rfl, fun _ => .inl rfl, fun c hc => ?_⟩
        rcases List.mem_append.mp hc with hc | hc
        · exact .inl hc
        · rw [List.mem_singleton.mp hc]
          exact .inr rfl
      · exact ih h

theorem Fresh.quiet (hs : Fresh s) (errorResponseMap : GoMap Json) :
    Fresh { s with errorResponseMap } :=
  ⟨hs.positive, hs.entries, hs.nodup, hs.threads, hs.tickers, hs.servers⟩

theorem Fresh.effect (hs : Fresh s) (h : Effect m s requestMap s') : Fresh s' := by
  cases h with
  | quiet errorResponseMap => exact hs.quiet errorResponseMap
  | unsubscribe _ _ hdeactivations => exact hs.deactivations hdeactivations
  | kill _ _ hdeactivations => exact hs.deactivations hdeactivations
  | @cancel _ _ _ errorResponseMap _ _ _ _ _ hdeactivations =>
    exact (hs.quiet errorResponseMap).deactivations hdeactivations
  | subscribe _ _ _ _ _ _ hactivate =>
    obtain ⟨hlist, htickers, hservers⟩ := activateIfIntervalOrCL_some hactivate
    dsimp only at hlist htickers hservers
    have hpositive := hs.positive
    refine ⟨by dsimp only; omega, ?_, ?_, ?_, ?_, ?_⟩
    · intro e he
      rw [hlist] at he
      rcases List.mem_append.mp he with he | he
      · have hlt := hs.entries e he
        dsimp only
        omega
      · rw [List.mem_singleton.mp he]
        dsimp only [newEntry]
        omega
    · rw [hlist, List.map_append, List.nodup_append]
      refine ⟨hs.nodup, by simp, ?_⟩
      intro id hid id' hid' heq
      obtain ⟨e, he, rfl⟩ := List.mem_map.mp hid
      have hlt := hs.entries e he
      rw [List.map_singleton, List.mem_singleton] at hid'
      rw [heq, hid'] at hlt
      exact lt_irrefl _ hlt
    · intro e he
      rw [hlist] at he
      rcases List.mem_append.mp he with he | he
      · exact hs.threads e he
      · rw [List.mem_singleton.mp he]
        exact le_rfl
    · intro i
      have hlt := hs.tickers i
      dsimp only
      rcases htickers i with hi | hi <;> omega
    · intro c hc
      dsimp only
      rcases hservers c hc with hc | hc
      · have hlt := hs.servers c hc
        omega
      · omega

theorem checkEntry_some {e e' : SubscriptionState} {messages : List GoString}
    (h : checkEntry cfg m e = some (e', messages)) :
    ∃ latestDataPoint, e' = { e with latestDataPoint } := by
  simp only [checkEntry, Option.bind_eq_bind, Option.bind_eq_some_iff] at h
  obtain ⟨path, -, h⟩ := h
  split at h
  · simp only [Option.bind_eq_some_iff, Option.some.injEq, Prod.mk.injEq] at h
    obtain ⟨_, -, _, -, rfl, -⟩ := h
    exact ⟨_, rfl⟩
  · obtain ⟨rfl, -⟩ := Prod.mk.inj (Option.some.inj h)
    exact ⟨_, rfl⟩

/-- The scan for notifications only changes latest data points. -/
theorem checkEntries_some {entries entries' : List SubscriptionState} {messages : List GoString}
    (h : checkEntries cfg m entries = some (entries', messages)) :
    List.Forall₂ (fun e e' => ∃ latestDataPoint, e' = { e with latestDataPoint })
      entries entries' := by
  induction entries generalizing entries' messages with
  | nil =>
    obtain ⟨rfl, -⟩ := Prod.mk.inj (Option.some.inj h)
    exact .nil
  | cons e entries ih =>
    simp only [checkEntries, Option.bind_eq_bind, Option.bind_eq_some_iff, Option.some.injEq,
      Prod.mk.injEq] at h
    obtain ⟨⟨e', _⟩, he, ⟨rest, _⟩, hrest, rfl, -⟩ := h
    exact .cons (checkEntry_some he) (ih hrest)

/-- The entries agree but for the latest data point, and the thread count is not higher. -/
def SameSubscription (e e' : SubscriptionState) : Prop :=
  e'.subscriptionThreads ≤ e.subscriptionThreads ∧
    e' = { e with
      latestDataPoint := e'.latestDataPoint
      subscriptionThreads := e'.subscriptionThreads }

theorem SameSubscription.refl (e : SubscriptionState) : SameSubscription e e := ⟨le_rfl, rfl⟩

theorem forall₂_modify {R : SubscriptionState → SubscriptionState → Prop}
    {f : SubscriptionState → SubscriptionState} (hrefl : ∀ e, R e e) (hf : ∀ e, R e (f e))
    (l : List SubscriptionState) (index : ℕ) : List.Forall₂ R l (l.modify index f) := by
  induction l generalizing index with
  | nil => simp
  | cons e l ih =>
    cases index with
    | zero =>
      rw [List.modify_zero_cons]
      exact .cons (hf e) (List.forall₂_same.mpr fun e _ => hrefl e)
    | succ index =>
      rw [List.modify_succ_cons]
      exact .cons (hrefl e) (ih index)

/-- A curve logging pack counts the threads of its entry down below 0, which removes no
entry. -/
theorem curveLoggingNotification_some {id : ℤ} {dataPack : GoString}
    {messages : List GoString} (hs : ∀ e ∈ s.subscriptionList, e.subscriptionThreads ≤ 0)
    (h : curveLoggingNotification m s id dataPack = some (s', messages)) :
    ∃ index, getSubcriptionStateIndex id s.subscriptionList = some index ∧
      s' = countPack s index := by
  simp only [curveLoggingNotification, Option.bind_eq_bind, Option.bind_eq_some_iff,
    Option.some.injEq, Prod.mk.injEq] at h
  obtain ⟨index, hindex, e, he, _, -, _, -, rfl, -⟩ := h
  have hthreads : e.subscriptionThreads < 0 := by
    rw [countPack, List.getElem?_modify_eq, Option.map_eq_map, Option.map_eq_some_iff] at he
    obtain ⟨e₀, he₀, rfl⟩ := he
    have hle := hs e₀ (List.mem_of_getElem? he₀)
    dsimp only
    omega
  refine ⟨index, hindex, if_neg ?_⟩
  rintro ⟨-, hzero⟩
  omega

/-- A pass of the loop without a request leaves the list as it is, but for data points and
thread counts. -/
theorem handleTrigger_some {e : Event} {messages : List GoString}
    (hs : ∀ e ∈ s.subscriptionList, e.subscriptionThreads ≤ 0)
    (h : handleTrigger cfg m s e = some (s', messages)) :
    List.Forall₂ SameSubscription s.subscriptionList s'.subscriptionList ∧
    s'.subscriptionId = s.subscriptionId ∧ s'.tickerIndexList = s.tickerIndexList ∧
    s'.curveLoggingServers = s.curveLoggingServers := by
  have hsame : List.Forall₂ SameSubscription s.subscriptionList s.subscriptionList :=
    List.forall₂_same.mpr fun e _ => .refl e
  cases e with
  | request => simp [handleTrigger] at h
  | dummyTick =>
    obtain ⟨rfl, -⟩ := Prod.mk.inj (Option.some.inj h)
    exact ⟨hsame, rfl, rfl, rfl⟩
  | interval id =>
    simp only [handleTrigger, intervalNotification, Option.bind_eq_bind,
      Option.bind_eq_some_iff, Option.some.injEq, Prod.mk.injEq] at h
    obtain ⟨_, -, _, -, _, -, _, -, rfl, -⟩ := h
    exact ⟨hsame, rfl, rfl, rfl⟩
  | clPack id dataPack =>
    obtain ⟨index, -, rfl⟩ := curveLoggingNotification_some hs h
    refine ⟨forall₂_modify .refl (fun e => ⟨?_, rfl⟩) _ index, rfl, rfl, rfl⟩
    dsimp only
    omega
  | subscriptTick =>
    simp only [handleTrigger, Option.bind_eq_bind, Option.bind_eq_some_iff, Option.some.injEq,
      Prod.mk.injEq] at h
    obtain ⟨⟨entries, _⟩, hentries, rfl, -⟩ := h
    refine ⟨(checkEntries_some hentries).imp ?_, rfl, rfl, rfl⟩
    rintro e e' ⟨latestDataPoint, rfl⟩
    exact ⟨le_rfl, rfl⟩
  | capture =>
    rw [handleTrigger] at h
    split at h
    · obtain ⟨rfl, -⟩ := Prod.mk.inj (Option.some.inj h)
      exact ⟨hsame, rfl, rfl, rfl⟩
    · obtain ⟨rfl, -⟩ := Prod.mk.inj (Option.some.inj h)
      exact ⟨hsame, rfl, rfl, rfl⟩

/-- A trigger leaves the tickers alone, and the sessions unless it is a capture. -/
theorem handleTrigger_frame {e : Event} {messages : List GoString}
    (h : handleTrigger cfg m s e = some (s', messages)) :
    s'.subscriptionTicker = s.subscriptionTicker ∧
      (e ≠ .capture → s'.numOfClSessions = s.numOfClSessions) := by
  cases e with
  | request => exact nomatch h
  | dummyTick =>
    obtain ⟨rfl, -⟩ := Prod.mk.inj (Option.some.inj h)
    exact ⟨rfl, fun _ => rfl⟩
  | interval id =>
    simp only [handleTrigger, intervalNotification, Option.bind_eq_bind,
      Option.bind_eq_some_iff, Option.some.injEq, Prod.mk.injEq] at h
    obtain ⟨_, -, _, -, _, -, _, -, rfl, -⟩ := h
    exact ⟨rfl, fun _ => rfl⟩
  | clPack id dataPack =>
    simp only [handleTrigger, curveLoggingNotification, Option.bind_eq_bind,
      Option.bind_eq_some_iff, Option.some.injEq, Prod.mk.injEq] at h
    obtain ⟨index, -, _, -, _, -, _, -, rfl, -⟩ := h
    split
    · exact ⟨rfl, fun _ => rfl⟩
    · exact ⟨rfl, fun _ => rfl⟩
  | subscriptTick =>
    simp only [handleTrigger, Option.bind_eq_bind, Option.bind_eq_some_iff, Option.some.injEq,
      Prod.mk.injEq] at h
    obtain ⟨⟨l, _⟩, -, rfl, -⟩ := h
    exact ⟨rfl, fun _ => rfl⟩
  | capture =>
    rw [handleTrigger] at h
    split at h
    · obtain ⟨rfl, -⟩ := Prod.mk.inj (Option.some.inj h)
      exact ⟨rfl, fun hne => absurd rfl hne⟩
    · obtain ⟨rfl, -⟩ := Prod.mk.inj (Option.some.inj h)
      exact ⟨rfl, fun hne => absurd rfl hne⟩

theorem sameSubscriptions {l l' : List SubscriptionState}
    (h : List.Forall₂ SameSubscription l l') :
    l'.map SubscriptionState.subscriptionId = l.map SubscriptionState.subscriptionId ∧
      ∀ e' ∈ l', ∃ e ∈ l, SameSubscription e e' := by
  induction h with
  | nil => exact ⟨rfl, fun _ h => absurd h List.not_mem_nil⟩
  | @cons e e' l l' he _ ih =>
    refine ⟨by rw [List.map_cons, List.map_cons, ih.1, he.2], fun e'' he'' => ?_⟩
    rcases List.mem_cons.mp he'' with rfl | he''
    · exact ⟨e, List.mem_cons_self, he⟩
    · obtain ⟨e₀, he₀, hsame⟩ := ih.2 e'' he''
      exact ⟨e₀, List.mem_cons_of_mem _ he₀, hsame⟩

theorem Fresh.trigger {e : Event} {messages : List GoString} (hs : Fresh s)
    (h : handleTrigger cfg m s e = some (s', messages)) : Fresh s' := by
  obtain ⟨hlist, hid, htickers, hservers⟩ := handleTrigger_some hs.threads h
  obtain ⟨hids, hold⟩ := sameSubscriptions hlist
  refine ⟨hid ▸ hs.positive, ?_, hids ▸ hs.nodup, ?_, ?_, ?_⟩
  · intro e' he'
    obtain ⟨e, he, -, hsame⟩ := hold e' he'
    rw [hsame, hid]
    exact hs.entries e he
  · intro e' he'
    obtain ⟨e, he, hle, -⟩ := hold e' he'
    exact hle.trans (hs.threads e he)
  · rw [htickers, hid]
    exact hs.tickers
  · rw [hservers, hid]
    exact hs.servers

end

theorem requestStep_mgr (cfg : Config) (m : Moment) (s : State) (request : GoString) :
    (requestStep cfg m s request).1.mgr = s ∨
      Effect m s (requestMapOf request) (requestStep cfg m s request).1.mgr := by
  unfold requestStep
  dsimp only
  cases hending : (handleRequest cfg m s request).ending with
  | back s' => exact .inr (handleRequest_effect hending)
  | panic => exact .inl rfl
  | hang => exact .inl rfl

theorem triggerStep_mgr (cfg : Config) (m : Moment) (x : Service) (e : Event) :
    (triggerStep cfg m x e).1.mgr = x.mgr ∨
      ∃ messages, handleTrigger cfg m x.mgr e = some ((triggerStep cfg m x e).1.mgr, messages) := by
  unfold triggerStep
  cases handleTrigger cfg m x.mgr e with
  | none => exact .inl rfl
  | some r => exact .inr ⟨r.2, rfl⟩

/-- A pass of the loop changes the state as a request or a trigger does, or ends. -/
theorem serviceStep_mgr {cfg : Config} {m : Moment} {e : Event} {before after : Service}
    {output : Output} (h : serviceStep cfg before (m, e) = some (after, output)) :
    after.mgr = before.mgr ∨
    (∃ request, e = .request request ∧ Effect m before.mgr (requestMapOf request) after.mgr) ∨
    ∃ messages, handleTrigger cfg m before.mgr e = some (after.mgr, messages) := by
  unfold serviceStep at h
  split at h
  · next m' request heq =>
    obtain ⟨rfl, rfl⟩ := Prod.mk.inj heq
    split at h
    · simp at h
    · have hafter := congrArg (fun r => r.1.mgr) (Option.some.inj h)
      dsimp only at hafter
      rw [← hafter]
      exact (requestStep_mgr cfg m before.mgr request).imp_right fun h => .inl ⟨request, rfl, h⟩
  · next m' e' _ heq =>
    obtain ⟨rfl, rfl⟩ := Prod.mk.inj heq
    split at h
    · simp at h
    · have hafter := congrArg (fun r => r.1.mgr) (Option.some.inj h)
      dsimp only at hafter
      rw [← hafter]
      exact (triggerStep_mgr cfg m before e).imp_right .inr

/-- The state of the service manager is fresh in every run. -/
theorem ServiceRun.fresh {cfg : Config} {h : ServiceHistory} {x : Service}
    (hrun : ServiceRun cfg h x) : Fresh x.mgr := by
  refine hrun.invariant (I := fun _ x => Fresh x.mgr) ?_ ?_
  · rintro x rfl
    exact fresh_initialState
  · rintro - ⟨before, ⟨m, e⟩, after, output⟩ hs hx
    rcases serviceStep_mgr hx with heq | ⟨request, -, heffect⟩ | ⟨messages, htrigger⟩
    · exact heq ▸ hs
    · exact hs.effect heffect
    · exact hs.trigger htrigger

end VissServer.ServiceMgr
