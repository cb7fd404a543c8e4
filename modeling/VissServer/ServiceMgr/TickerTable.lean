import VissServer.ServiceMgr.TickerOwners
import VissServer.ServiceMgr.Unsubscribing

/-!
Runs of the loop and historyServer on the ticker table. As long as every start and every
stop is regular, each live owner holds one slot, and a stop is that of its own ticker.
-/
namespace VissServer.ServiceMgr

open Go Utils Runs

/-- The path and the frequency of a start request for a recording. -/
def startOf (requestMap : GoMap Json) : Option (GoString × ℤ) := do
  let path ← asString (valueAt requestMap (str "path"))
  let frequency ← (numberMember requestMap (str "frequency")).bind id
  if textMember requestMap (str "action") = str "start" then some (path, frequency) else none

/-- The path of a stop request for a recording. -/
def stopOf (requestMap : GoMap Json) : Option GoString := do
  let path ← asString (valueAt requestMap (str "path"))
  if textMember requestMap (str "action") = str "stop" then some path else none

/-- The number of the owner is no free marker and that of no live owner. -/
def Unheld (x : Recording) (o : TickerOwner) : Prop :=
  o.number ≠ 0 ∧ ∀ o' ∈ owners x, o'.number ≠ o.number
  deriving Decidable

/-- The trigger of a timebased subscription is a ticker, there is a slot for it, and its id
is unheld unless NewTicker panics. -/
def IntervalStartable (x : Recording) (e : SubscriptionState) : Prop :=
  isTimebased e = true → ∃ f ∈ e.filterList.find? armsTrigger,
    f.type = str "timebased" ∧ 0 < getIntervalPeriod f.parameter ∧ tickerSlot x.mgr 0 ≠ none ∧
      (0 < wrapInt64 (getIntervalPeriod f.parameter * 1000000) →
        Unheld x (.interval e.subscriptionId))
  deriving Decidable

/-- As for an interval, where NewTicker takes the frequencies up to one per millisecond. -/
def HistoryStartable (x : Recording) (k : ℕ) (frequency : ℤ) : Prop :=
  tickerSlot x.mgr 0 ≠ none ∧
    (0 < frequency ∧ frequency ≤ 3600 * 1000 → Unheld x (.signal k))
  deriving Decidable

/-- An entry that its stop removes from the list. -/
def StopRemoves (e : SubscriptionState) : Prop := isTimebased e = true → isCurveLog e = false
  deriving Decidable

/-- The entries that the request names are removed by their stops. -/
def NamesRemoved (x : Recording) (requestMap : GoMap Json) : Prop :=
  ∀ e ∈ x.mgr.subscriptionList, names x.mgr requestMap e = true → StopRemoves e
  deriving Decidable

/-- The starts of the event are for new numbers, and its stops for live owners that are no
owners behind it. -/
def Regular (x : Recording) : RecordingEvent → Prop
  | .loop m (.request request) =>
      (∀ e ∈ subscribed m x.mgr.subscriptionId (requestMapOf request), IntervalStartable x e) ∧
      NamesRemoved x (requestMapOf request)
  | .loop _ _ => True
  | .histCtrl histCtrlReq => x.listExists = true →
      (∀ r ∈ startOf (requestMapOf histCtrlReq),
        ∃ k ∈ getHistoryListIndex r.1 x.historyList, HistoryStartable x k r.2) ∧
      ∀ path ∈ stopOf (requestMapOf histCtrlReq),
        ∃ k ∈ getHistoryListIndex path x.historyList, .signal k ∈ owners x

/-- No -1 is an index: a request that stops subscriptions does not panic, nor does a stop of
a recording, and the signal of a start is in the list. -/
def IndexesFound (y : RecordingMove) : Prop :=
  match y.event with
  | .loop _ (.request request) =>
      (∃ e ∈ y.before.mgr.subscriptionList, names y.before.mgr (requestMapOf request) e = true) →
        y.after.status ≠ .panicked
  | .loop _ _ => True
  | .histCtrl histCtrlReq => y.before.listExists = true →
      (∀ r ∈ startOf (requestMapOf histCtrlReq),
        getHistoryListIndex r.1 y.before.historyList ≠ none) ∧
      ((stopOf (requestMapOf histCtrlReq)).isSome = true → y.after.status ≠ .panicked)

/-- The tickers in the table are those of the live owners, their stops are exact, and no move
before has acted on a slot of another owner or used an index -1. -/
def TickerTableKept (h : RecordingHistory) (x : Recording) : Prop :=
  TickersOwned x ∧ StopsExact x ∧
    Always (fun _ y => ActsOnOwn y.before y.after ∧ IndexesFound y) h

/-- The ids in the list are positive, distinct and below the next one. -/
structure Listed (s : State) : Prop where
  positive : 0 < s.subscriptionId
  entries : ∀ e ∈ s.subscriptionList, 0 < e.subscriptionId ∧ e.subscriptionId < s.subscriptionId
  nodup : (s.subscriptionList.map SubscriptionState.subscriptionId).Nodup
  threads : ∀ e ∈ s.subscriptionList, e.subscriptionThreads ≤ 0

/-- What every move keeps. -/
structure Kept (x : Recording) : Prop where
  tickers : TickersOwned x
  listed : Listed x.mgr

theorem kept_initialRecording (leafPaths : Option (List GoString)) :
    Kept (initialRecording leafPaths) := by
  have hnone : ∀ o, o ∉ owners (initialRecording leafPaths) := by
    intro o ho
    cases o with
    | interval id =>
      obtain ⟨e, he, -⟩ := interval_mem_owners.mp ho
      exact List.not_mem_nil he
    | signal k =>
      obtain ⟨signal, hget, hstatus⟩ := signal_mem_owners.mp ho
      cases leafPaths with
      | none => simp [initialRecording, createHistoryList] at hget
      | some paths =>
        simp only [initialRecording, createHistoryList, Option.map_some, Option.getD_some,
          List.getElem?_map, Option.map_eq_some_iff] at hget
        obtain ⟨path, -, rfl⟩ := hget
        exact hstatus rfl
  refine ⟨⟨Tables.owned_of_free (fun i => rfl) hnone, fun o i => ?_⟩, ?_⟩
  · refine iff_of_false ?_ fun h => hnone o h.1
    cases o with
    | interval id =>
      rintro ⟨t, ht, -⟩
      exact absurd ht nofun
    | signal k =>
      rintro ⟨t, ht, -⟩
      exact absurd ht nofun
  · refine ⟨Int.one_pos, ?_, List.nodup_nil, ?_⟩
    · exact fun e he => absurd he List.not_mem_nil
    · exact fun e he => absurd he List.not_mem_nil

section

variable {cfg : Config} {m : Moment} {x x' : Recording} {s s' : State}
  {requestMap : GoMap Json} {e : SubscriptionState}

theorem Listed.of_subperm (hs : Listed s) (hid : s'.subscriptionId = s.subscriptionId)
    (hsub : s'.subscriptionList.Subperm s.subscriptionList) : Listed s' := by
  refine ⟨hid ▸ hs.positive, ?_, nodup_ids_of_subperm hsub hs.nodup, ?_⟩
  · intro e he
    rw [hid]
    exact hs.entries e (hsub.subset he)
  · exact fun e he => hs.threads e (hsub.subset he)

/-- The owners behind the removal of an entry. -/
theorem owners_of_removed (x' : Recording) (hx : Listed x.mgr)
    (hlist : (e :: x'.mgr.subscriptionList).Perm x.mgr.subscriptionList)
    (hhistory : x'.historyList = x.historyList) (o : TickerOwner) :
    o ∈ owners x' ↔
      o ∈ owners x ∧ ¬ (isTimebased e = true ∧ o = .interval e.subscriptionId) := by
  have hnodup : ((e :: x'.mgr.subscriptionList).map SubscriptionState.subscriptionId).Nodup :=
    (hlist.map _).nodup_iff.mpr hx.nodup
  rw [List.map_cons, List.nodup_cons] at hnodup
  cases o with
  | signal k => simp [hhistory]
  | interval id =>
    rw [interval_mem_owners, interval_mem_owners]
    constructor
    · rintro ⟨e', he', htimebased, rfl⟩
      refine ⟨⟨e', hlist.subset (List.mem_cons_of_mem _ he'), htimebased, rfl⟩, ?_⟩
      rintro ⟨-, heq⟩
      refine hnodup.1 (List.mem_map.mpr ⟨e', he', ?_⟩)
      exact TickerOwner.interval.inj heq
    · rintro ⟨⟨e', he', htimebased, rfl⟩, hother⟩
      rcases List.mem_cons.mp (hlist.symm.subset he') with rfl | he'
      · exact absurd ⟨htimebased, rfl⟩ hother
      · exact ⟨e', he', htimebased, rfl⟩

theorem owners_of_lists (x' : Recording) (hlist : x'.mgr.subscriptionList = x.mgr.subscriptionList)
    (hhistory : x'.historyList = x.historyList) (o : TickerOwner) :
    o ∈ owners x' ↔ o ∈ owners x := by
  unfold owners
  rw [hlist, hhistory]

/-- A state with the same table and no other owners. -/
theorem Kept.congr (hx : Kept x) (hslots : x'.slot = x.slot)
    (howners : ∀ o, o ∈ owners x' ↔ o ∈ owners x) (hlisted : Listed x'.mgr) :
    Kept x' ∧ StopsOwn x x' :=
  ⟨⟨hx.tickers.congr hslots howners, hlisted⟩,
    fun o ho => (howners o).mp ho, fun i => .inl (congrFun hslots i)⟩

theorem stopTrigger_timebased (h : isTimebased e = true) :
    stopTrigger s e = deactivateInterval s e.subscriptionId := if_pos h

theorem stopTrigger_untimed (h : ¬ isTimebased e = true) (hstop : stopTrigger s e = some s') :
    ∃ closeClSubId, s' = { s with closeClSubId } := by
  have huntimed : ¬ getOpType e.filterList (str "timebased") = true := h
  rw [stopTrigger, if_neg huntimed] at hstop
  split at hstop
  · exact ⟨_, (Option.some.inj hstop).symm⟩
  · exact ⟨s.closeClSubId, (Option.some.inj hstop).symm⟩

theorem Kept.deactivateEntry (hx : Kept x) {index : ℕ}
    (hget : x.mgr.subscriptionList[index]? = some e) (hremoves : StopRemoves e)
    (h : ServiceMgr.deactivateEntry x.mgr index e = some s') :
    Kept { x with mgr := s' } ∧ StopsOwn x { x with mgr := s' } := by
  obtain ⟨hlist, hid, -, -⟩ := deactivateEntry_some hget h
  have hlisted : Listed s' := hx.listed.of_subperm hid (deactivateEntry_subperm hget h)
  have hmem : e ∈ x.mgr.subscriptionList := List.mem_of_getElem? hget
  rw [ServiceMgr.deactivateEntry, Option.map_eq_some_iff] at h
  obtain ⟨s₁, hstop, hs'⟩ := h
  have hslots₁ : Recording.slot { x with mgr := s' } = Recording.slot { x with mgr := s₁ } := by
    rw [← hs']
    split <;> rfl
  by_cases htimebased : isTimebased e = true
  · have hplain := hremoves htimebased
    rw [if_neg (by simpa [isCurveLog] using hplain)] at hlist
    have ho : TickerOwner.interval e.subscriptionId ∈ owners x :=
      interval_mem_owners.mpr ⟨e, hmem, htimebased, rfl⟩
    have howners : ∀ o, o ∈ owners { x with mgr := s' } ↔
        o ∈ owners x ∧ o ≠ .interval e.subscriptionId := by
      intro o
      simpa [htimebased] using owners_of_removed { x with mgr := s' } hx.listed hlist rfl o
    rw [stopTrigger_timebased htimebased] at hstop
    obtain ⟨i, hi, hslot⟩ := deactivateInterval_slot hstop
    have hslots := hslots₁.trans hslot
    have hnumber : (x.slot i).number = e.subscriptionId := tickerSlot_some hi
    refine ⟨⟨hx.tickers.stop ho hnumber howners hslots, hlisted⟩, ?_, ?_⟩
    · exact fun o ho => ((howners o).mp ho).1
    · exact SlotStopped.of_update ho (fun hlive => ((howners _).mp hlive).2 rfl) hnumber hslots
  · obtain ⟨closeClSubId, rfl⟩ := stopTrigger_untimed htimebased hstop
    refine hx.congr hslots₁ (fun o => ?_) hlisted
    split at hlist
    · exact owners_of_lists { x with mgr := s' } hlist rfl o
    · simpa [htimebased] using owners_of_removed { x with mgr := s' } hx.listed hlist rfl o

theorem Kept.deactivations (hx : Kept x)
    (h : Deactivations (fun _ e => StopRemoves e) x.mgr s') :
    Kept { x with mgr := s' } ∧ StopsOwn x { x with mgr := s' } := by
  generalize hs : x.mgr = s at h
  induction h generalizing x with
  | none =>
    subst hs
    exact ⟨hx, StopsOwn.refl x⟩
  | step hget hremoves hentry _ ih =>
    subst hs
    obtain ⟨hx₁, hstop⟩ := hx.deactivateEntry hget hremoves hentry
    obtain ⟨hx', hstops⟩ := ih hx₁ rfl
    exact ⟨hx', hstop.trans hx₁.tickers hstops⟩

/-- The stop of an entry in the list does not panic. -/
theorem Kept.deactivateEntry_some (hx : Kept x) {index : ℕ} (errorResponseMap : GoMap Json)
    (hget : x.mgr.subscriptionList[index]? = some e) :
    ∃ s', ServiceMgr.deactivateEntry { x.mgr with errorResponseMap } index e = some s' := by
  have hmem : e ∈ x.mgr.subscriptionList := List.mem_of_getElem? hget
  refine Option.isSome_iff_exists.mp ((deactivateEntry_isSome _ index e).mpr fun htimebased => ?_)
  have hticker : HasTicker x.mgr e.subscriptionId :=
    hx.tickers.hasTicker (interval_mem_owners.mpr ⟨e, hmem, htimebased, rfl⟩)
  have hsame : HasTicker { x.mgr with errorResponseMap } e.subscriptionId ↔ _ :=
    HasTicker.congr (s := x.mgr) rfl rfl
  exact hsame.mpr hticker

/-- What a request that stops subscriptions has stopped when its handling ends, or goes on
for ever; it panics only where it names no subscription. -/
def StopsNamed (x : Recording) (request : GoString) : Ending → Prop
  | .back s' => ∃ errorResponseMap,
      Deactivations (fun _ e => StopRemoves e) { x.mgr with errorResponseMap } s'
  | .hang => Deactivations (fun _ e => StopRemoves e) x.mgr (stuckState x.mgr (.request request))
  | .panic => ∀ e ∈ x.mgr.subscriptionList, names x.mgr (requestMapOf request) e = false

theorem Kept.unsubscribes (hx : Kept x) {request : GoString}
    (haction : actionOf (requestMapOf request) = .unsubscribe)
    (hnames : NamesRemoved x (requestMapOf request)) :
    StopsNamed x request
      (Handled.once (unsubscribeRequest m x.mgr (requestMapOf request))).ending := by
  unfold unsubscribeRequest
  split
  · exact ⟨_, .none _⟩
  · next id hid =>
    rw [deactivateSubscription]
    rcases deactivateSubscriptionId_cases x.mgr (atoiIgnoringError id) with
      ⟨-, heq⟩ | ⟨index, e, hget, hsame, -, heq⟩
    · rw [heq]
      exact ⟨_, .none _⟩
    · obtain ⟨s', hs'⟩ := hx.deactivateEntry_some x.mgr.errorResponseMap hget
      have hnamed : names x.mgr (requestMapOf request) e = true := by
        simp [names, haction, hid, hsame]
      rw [heq, show ServiceMgr.deactivateEntry x.mgr index e = some s' from hs']
      refine ⟨x.mgr.errorResponseMap, .step hget ?_ hs' (.none _)⟩
      exact hnames e (List.mem_of_getElem? hget) hnamed

/-- The passes of a kill over entries that are removed by their stops. -/
theorem Kept.killLoop (hx : Kept x) {routerId : GoString} (passes : ℕ)
    (hremoves : ∀ e ∈ x.mgr.subscriptionList, e.routerId = routerId → StopRemoves e) :
    ServiceMgr.killLoop routerId passes x.mgr ≠ .panic ∧
      Deactivations (fun _ e => StopRemoves e) x.mgr (killPasses routerId passes x.mgr) ∧
      ∀ s', ServiceMgr.killLoop routerId passes x.mgr = .back s' →
        s' = killPasses routerId passes x.mgr := by
  induction passes generalizing x with
  | zero => exact ⟨by simp [ServiceMgr.killLoop], .none _, by simp [ServiceMgr.killLoop]⟩
  | succ passes ih =>
    rw [ServiceMgr.killLoop, killPasses]
    cases hfind : x.mgr.subscriptionList.find? fun e => e.routerId = routerId with
    | none =>
      rw [show scanAndRemoveListItem x.mgr routerId = some (false, x.mgr) by
        rw [scanAndRemoveListItem, hfind]]
      exact ⟨by simp, .none _, fun s' h => (Ending.back.inj h).symm⟩
    | some e =>
      obtain ⟨index, hget, hscan⟩ := scanAndRemoveListItem_found hx.listed.nodup hfind
      have hrouter : e.routerId = routerId := by simpa using List.find?_some hfind
      have hstop := hremoves e (List.mem_of_find?_eq_some hfind) hrouter
      obtain ⟨s₁, hs₁⟩ := hx.deactivateEntry_some x.mgr.errorResponseMap hget
      have hentry : ServiceMgr.deactivateEntry x.mgr index e = some s₁ := hs₁
      obtain ⟨hx₁, -⟩ := hx.deactivateEntry hget hstop hentry
      have hsub := (deactivateEntry_subperm hget hentry).subset
      rw [hscan, hentry, Option.map_some]
      obtain ⟨hpanic, hrest, hback⟩ := ih hx₁ fun e' he' => hremoves e' (hsub he')
      exact ⟨hpanic, .step hget hstop hentry hrest, hback⟩

theorem Kept.kills (hx : Kept x) {request : GoString}
    (haction : actionOf (requestMapOf request) = .killSubscriptions)
    (hnames : NamesRemoved x (requestMapOf request)) :
    StopsNamed x request (killSubscriptions x.mgr (requestMapOf request)).ending := by
  unfold killSubscriptions
  cases hrouter : asString (valueAt (requestMapOf request) (str "RouterId")) with
  | none =>
    intro e _
    simp [names, haction, hrouter]
  | some routerId =>
    have hremoves : ∀ e ∈ x.mgr.subscriptionList, e.routerId = routerId → StopRemoves e := by
      intro e he hsame
      refine hnames e he ?_
      simp [names, haction, hrouter, hsame]
    obtain ⟨hpanic, hpasses, hback⟩ :=
      hx.killLoop (x.mgr.subscriptionList.length + 1) hremoves
    dsimp only
    cases hending : ServiceMgr.killLoop routerId (x.mgr.subscriptionList.length + 1) x.mgr with
    | back s' =>
      rw [hback s' hending]
      exact ⟨x.mgr.errorResponseMap, hpasses⟩
    | panic => exact absurd hending hpanic
    | hang =>
      rw [StopsNamed, stuckState, textMember, hrouter, Option.getD_some]
      exact hpasses

theorem Kept.cancels (hx : Kept x) {request : GoString}
    (haction : actionOf (requestMapOf request) = .cancelSubscription)
    (hnames : NamesRemoved x (requestMapOf request)) :
    StopsNamed x request (cancelSubscription m x.mgr (requestMapOf request)).ending := by
  unfold cancelSubscription
  cases hgating : asString (valueAt (requestMapOf request) (str "gatingId")) with
  | none =>
    intro e _
    simp [names, haction, cancelled, hgating]
  | some gatingId =>
    dsimp only
    cases hfind : x.mgr.subscriptionList.find? fun e => e.gatingId = gatingId with
    | none =>
      simp only [getSubscriptionData, hfind, if_true]
      exact ⟨x.mgr.errorResponseMap, .none _⟩
    | some e₁ =>
      simp only [getSubscriptionData, hfind]
      split
      · exact ⟨x.mgr.errorResponseMap, .none _⟩
      · next hne =>
        have hmem := List.mem_of_find?_eq_some hfind
        cases hfirst : x.mgr.subscriptionList.find? fun e => e.routerId = e₁.routerId with
        | none =>
          have hself := List.find?_eq_none.mp hfirst e₁ hmem
          simp at hself
        | some e₂ =>
          have hcancelled : cancelled x.mgr (requestMapOf request) = some e₂ := by
            simp [cancelled, hgating, hfind, hne, hfirst]
          have hnamed : names x.mgr (requestMapOf request) e₂ = true := by
            simp [names, haction, hcancelled]
          generalize herror : setErrorResponse _ _ _ _ _ = errorResponseMap
          obtain ⟨index, hget, hscan⟩ := scanAndRemoveListItem_found
            (s := { x.mgr with errorResponseMap }) hx.listed.nodup hfirst
          obtain ⟨s', hs'⟩ := hx.deactivateEntry_some errorResponseMap hget
          rw [errorAnswer, herror]
          dsimp only
          rw [hscan, hs', Option.map_some]
          refine ⟨errorResponseMap, .step hget ?_ hs' (.none _)⟩
          exact hnames e₂ (List.mem_of_find?_eq_some hfirst) hnamed

theorem isTimebased_iff : isTimebased e = true ↔ ∃ f ∈ e.filterList, f.type = str "timebased" := by
  simp [isTimebased, getOpType]

/-- The trigger of a subscription that is none of the ticker table. -/
theorem activateIfIntervalOrCL_untimed {filterList : List FilterObject} {id : ℤ}
    {paths : List GoString} (huntimed : ∀ f ∈ filterList, f.type ≠ str "timebased")
    (h : activateIfIntervalOrCL s filterList id paths = some s') :
    ∃ curveLoggingServers, s' = { s with curveLoggingServers } := by
  induction filterList with
  | nil => exact ⟨s.curveLoggingServers, (Option.some.inj h).symm⟩
  | cons f filterList ih =>
    rw [activateIfIntervalOrCL, if_neg (huntimed f List.mem_cons_self)] at h
    split at h
    · exact ⟨_, (Option.some.inj h).symm⟩
    · exact ih (fun g hg => huntimed g (List.mem_cons_of_mem _ hg)) h

/-- The trigger of a subscription that is a ticker. -/
theorem activateIfIntervalOrCL_timed {filterList : List FilterObject} {f : FilterObject} {id : ℤ}
    {paths : List GoString} (hfind : filterList.find? armsTrigger = some f)
    (htype : f.type = str "timebased") (hpositive : 0 < getIntervalPeriod f.parameter)
    (h : activateIfIntervalOrCL s filterList id paths = some s') :
    activateInterval s id (getIntervalPeriod f.parameter) = some s' := by
  rw [activateIfIntervalOrCL_eq, hfind] at h
  dsimp only at h
  rw [activateIfIntervalOrCL, if_pos htype] at h
  dsimp only at h
  rwa [if_pos hpositive] at h

theorem activateInterval_slot {id interval : ℤ} (hfree : tickerSlot x.mgr 0 ≠ none)
    (h : activateInterval x.mgr id interval = some s') :
    ∃ i, (x.slot i).number = 0 ∧ 0 < wrapInt64 (interval * 1000000) ∧
      Recording.slot { x with mgr := s' } = Function.update x.slot i
        ((x.slot i).start (wrapInt64 (interval * 1000000)) (.interval id)) := by
  unfold activateInterval at h
  split at h
  · next hnone => exact absurd hnone hfree
  · next i hi =>
    dsimp only at h
    split at h
    · simp at h
    · next hperiod =>
      refine ⟨i, tickerSlot_some hi, by omega, funext fun j => ?_⟩
      rw [← Option.some.inj h]
      by_cases hji : j = i
      · subst hji
        simp [Recording.slot, Slot.start]
      · simp [Recording.slot, Function.update_of_ne hji]

/-- NewTicker takes the period of a frequency from one per hour to one per millisecond. -/
theorem frequency_of_period {frequency : ℤ} (hzero : frequency ≠ 0)
    (h : ¬ wrapInt64 (Int.tdiv (3600 * 1000) frequency * 1000000) ≤ 0) :
    0 < frequency ∧ frequency ≤ 3600 * 1000 := by
  have hbound : (Int.tdiv (3600 * 1000) frequency).natAbs ≤ 3600 * 1000 := by
    rw [Int.natAbs_tdiv]
    exact Nat.div_le_self _ _
  have hperiod : 0 < Int.tdiv (3600 * 1000) frequency := by
    by_contra hnonpos
    refine h ?_
    have hlow : -(3600 * 1000) ≤ Int.tdiv (3600 * 1000) frequency := by omega
    generalize Int.tdiv (3600 * 1000) frequency = period at hnonpos hlow
    rw [wrapInt64, Int.emod_eq_of_lt (by omega) (by omega)]
    omega
  rcases lt_or_gt_of_ne hzero with hneg | hpos
  · have hnonpos : Int.tdiv (3600 * 1000) frequency ≤ 0 := by
      obtain ⟨n, rfl⟩ : ∃ n : ℤ, frequency = -n := ⟨-frequency, by omega⟩
      rw [Int.tdiv_neg]
      have hn : 0 ≤ Int.tdiv (3600 * 1000) n := Int.tdiv_nonneg (by omega) (by omega)
      omega
    omega
  · refine ⟨hpos, ?_⟩
    by_contra hgt
    rw [Int.tdiv_eq_zero_of_lt (by omega) (by omega)] at hperiod
    omega

theorem activateHistory_slot {k : ℕ} {frequency : ℤ} (hfree : tickerSlot x.mgr 0 ≠ none)
    (h : activateHistory x k frequency = some x') :
    0 < frequency ∧ frequency ≤ 3600 * 1000 ∧ x'.historyList = x.historyList ∧
      x'.mgr.subscriptionList = x.mgr.subscriptionList ∧
      x'.mgr.subscriptionId = x.mgr.subscriptionId ∧
      ∃ i period, (x.slot i).number = 0 ∧
        x'.slot = Function.update x.slot i ((x.slot i).start period (.signal k)) := by
  unfold activateHistory at h
  split at h
  · next hnone => exact absurd hnone hfree
  · next i hi =>
    split at h
    · simp at h
    · next hfrequency =>
      dsimp only at h
      split at h
      · simp at h
      · next hperiod =>
        obtain ⟨hpositive, hle⟩ := frequency_of_period hfrequency hperiod
        obtain rfl := Option.some.inj h
        refine ⟨hpositive, hle, rfl, rfl, rfl, i,
          wrapInt64 (Int.tdiv (3600 * 1000) frequency * 1000000), tickerSlot_some hi,
          funext fun j => ?_⟩
        by_cases hji : j = i
        · subst hji
          simp [Recording.slot, Slot.start]
        · simp [Recording.slot, Function.update_of_ne hji]

theorem Listed.of_added (hs : Listed s) (hid : e.subscriptionId = s.subscriptionId)
    (hthreads : e.subscriptionThreads ≤ 0)
    (hlist : s'.subscriptionList = s.subscriptionList ++ [e])
    (hnext : s'.subscriptionId = s.subscriptionId + 1) : Listed s' := by
  have hpositive := hs.positive
  have hmem : ∀ e' ∈ s'.subscriptionList, e' ∈ s.subscriptionList ∨ e' = e := by
    intro e' he'
    rw [hlist] at he'
    exact (List.mem_append.mp he').imp_right List.mem_singleton.mp
  refine ⟨by omega, ?_, ?_, ?_⟩
  · intro e' he'
    rcases hmem e' he' with he' | rfl
    · have hold := hs.entries e' he'
      omega
    · omega
  · rw [hlist, List.map_append, List.map_singleton, List.nodup_append]
    refine ⟨hs.nodup, List.nodup_singleton _, fun id' hid' id'' hid'' heq => ?_⟩
    obtain ⟨e', he', rfl⟩ := List.mem_map.mp hid'
    have hold := hs.entries e' he'
    rw [List.mem_singleton.mp hid''] at heq
    omega
  · intro e' he'
    rcases hmem e' he' with he' | rfl
    · exact hs.threads e' he'
    · exact hthreads

theorem owners_of_added (hlist : x'.mgr.subscriptionList = x.mgr.subscriptionList ++ [e])
    (hhistory : x'.historyList = x.historyList) (o : TickerOwner) :
    o ∈ owners x' ↔ o ∈ owners x ∨ isTimebased e = true ∧ o = .interval e.subscriptionId := by
  cases o with
  | signal k => simp [hhistory]
  | interval id =>
    rw [interval_mem_owners, interval_mem_owners, hlist]
    simp only [List.mem_append, List.mem_singleton, or_and_right, exists_or, exists_eq_left,
      TickerOwner.interval.injEq]
    exact or_congr_right (and_congr_right fun _ => eq_comm)

/-- A subscription takes a slot where it is timebased, and nothing of the table otherwise. -/
theorem Kept.subscribes (hx : Kept x) {paths : List GoString} {s₁ : State}
    (hid : e.subscriptionId = x.mgr.subscriptionId) (hthreads : e.subscriptionThreads ≤ 0)
    (hstart : IntervalStartable x e)
    (hslots : Recording.slot { x with mgr := s } = x.slot)
    (hlist : s.subscriptionList = x.mgr.subscriptionList ++ [e])
    (h : activateIfIntervalOrCL s e.filterList e.subscriptionId paths = some s₁)
    (hslots' : x'.slot = Recording.slot { x with mgr := s₁ })
    (hlist' : x'.mgr.subscriptionList = s₁.subscriptionList)
    (hnext : x'.mgr.subscriptionId = x.mgr.subscriptionId + 1)
    (hhistory : x'.historyList = x.historyList) : Kept x' ∧ ActsOnOwn x x' := by
  have hadded := (hlist'.trans (activateIfIntervalOrCL_some h).1).trans hlist
  have hlisted : Listed x'.mgr := hx.listed.of_added hid hthreads hadded hnext
  have howners := owners_of_added hadded hhistory
  by_cases htimebased : isTimebased e = true
  · obtain ⟨f, hf, htype, hperiod, hfree, hunheld⟩ := hstart htimebased
    have hactivate := activateIfIntervalOrCL_timed hf htype hperiod h
    have hnumbers : ∀ i, s.tickerIndexList i = x.mgr.tickerIndexList i :=
      fun i => congrArg Slot.number (congrFun hslots i)
    rw [← tickerSlot_congr (s := x.mgr) fun i => by rw [hnumbers i]] at hfree
    obtain ⟨i, hi, hwrap, hstarted⟩ :=
      activateInterval_slot (x := { x with mgr := s }) hfree hactivate
    rw [hslots] at hi hstarted
    obtain ⟨hzero, hnew⟩ := hunheld hwrap
    have hnot : TickerOwner.interval e.subscriptionId ∉ owners x := fun ho => hnew _ ho rfl
    simp only [htimebased, true_and] at howners
    have hupdate := hslots'.trans hstarted
    refine ⟨⟨hx.tickers.start hi hzero hnew howners hupdate, hlisted⟩, fun j => ?_⟩
    exact (SlotStarted.of_update ((howners _).mpr (.inr rfl)) hnot hi hupdate j).imp_right .inr
  · have huntimed : ∀ f ∈ e.filterList, f.type ≠ str "timebased" :=
      fun f hf htype => htimebased (isTimebased_iff.mpr ⟨f, hf, htype⟩)
    obtain ⟨curveLoggingServers, rfl⟩ := activateIfIntervalOrCL_untimed huntimed h
    simp only [htimebased, false_and, or_false, Bool.false_eq_true] at howners
    obtain ⟨hx', hstops⟩ := hx.congr (hslots'.trans hslots) howners hlisted
    exact ⟨hx', hstops.actsOnOwn⟩

theorem Kept.quiet (hx : Kept x) (errorResponseMap : GoMap Json) :
    Kept { x with mgr := { x.mgr with errorResponseMap } } :=
  ⟨⟨hx.tickers.owned, hx.tickers.runs⟩, hx.listed.positive, hx.listed.entries, hx.listed.nodup,
    hx.listed.threads⟩

/-- What the handling of a request leaves of the table, when it ends or goes on for ever; it
does not panic over a subscription that it names. -/
def HandlingKept (x : Recording) (request : GoString) : Ending → Prop
  | .back s' => Kept { x with mgr := s' } ∧ ActsOnOwn x { x with mgr := s' }
  | .hang => Kept { x with mgr := stuckState x.mgr (.request request) } ∧
      ActsOnOwn x { x with mgr := stuckState x.mgr (.request request) }
  | .panic => ∀ e ∈ x.mgr.subscriptionList, names x.mgr (requestMapOf request) e = false

theorem Kept.of_stopsNamed (hx : Kept x) {request : GoString} {ending : Ending}
    (h : StopsNamed x request ending) : HandlingKept x request ending := by
  cases ending with
  | panic => exact h
  | hang =>
    obtain ⟨hx', hstops⟩ := hx.deactivations h
    exact ⟨hx', hstops.actsOnOwn⟩
  | back s' =>
    obtain ⟨errorResponseMap, hdeactivations⟩ := h
    obtain ⟨hx', hstops⟩ := (hx.quiet errorResponseMap).deactivations hdeactivations
    exact ⟨hx', hstops.actsOnOwn⟩

/-- A request that stops nothing. -/
theorem Kept.of_effect (hx : Kept x) (h : Effect m x.mgr requestMap s')
    (haction : actionOf requestMap ≠ .unsubscribe ∧
      actionOf requestMap ≠ .killSubscriptions ∧ actionOf requestMap ≠ .cancelSubscription)
    (hstart : ∀ e ∈ subscribed m x.mgr.subscriptionId requestMap, IntervalStartable x e) :
    Kept { x with mgr := s' } ∧ ActsOnOwn x { x with mgr := s' } := by
  cases h with
  | quiet errorResponseMap => exact ⟨hx.quiet errorResponseMap, ActsOnOwn.of_slots rfl⟩
  | unsubscribe hunsubscribe => exact absurd hunsubscribe haction.1
  | kill hkill => exact absurd hkill haction.2.1
  | cancel hcancel => exact absurd hcancel haction.2.2
  | @subscribe routerId gatingId paths path rest filter errorResponseMap s₁ hsubscribe hrouter hpath hpaths
      hfilter hgating hactivate =>
    have hsubscribed : subscribed m x.mgr.subscriptionId requestMap =
        some (newEntry m x.mgr routerId gatingId path rest (unpackFilter m.range filter)) := by
      simp [subscribed, hsubscribe, asString, hrouter, hpath, hfilter, hgating, hpaths, newEntry]
    have htable : Recording.slot { x with mgr := { x.mgr with
        errorResponseMap
        subscriptionList := x.mgr.subscriptionList ++
          [newEntry m x.mgr routerId gatingId path rest (unpackFilter m.range filter)] } } =
        x.slot := rfl
    exact hx.subscribes rfl le_rfl (hstart _ hsubscribed) htable rfl
      hactivate rfl rfl rfl rfl

theorem Handled.once_ends (r : MayPanic (State × GoString)) : (Handled.once r).ending ≠ .hang := by
  cases r <;> exact nofun

/-- Only the loop of a kill request does not end. -/
theorem handleRequest_ends (cfg : Config) (m : Moment) (s : State) {request : GoString}
    (haction : actionOf (requestMapOf request) ≠ .killSubscriptions) :
    (handleRequest cfg m s request).ending ≠ .hang := by
  unfold handleRequest
  dsimp only
  split
  · exact Handled.once_ends _
  · exact Handled.once_ends _
  · unfold subscribeRequest
    split
    · dsimp only
      split
      · exact Handled.once_ends _
      · split
        · exact Handled.once_ends _
        · exact Handled.once_ends _
    · exact nofun
  · exact Handled.once_ends _
  · next hkill => exact absurd hkill haction
  · unfold cancelSubscription
    split
    · exact nofun
    · dsimp only
      split
      · exact nofun
      · dsimp only
        split <;> exact nofun
  · exact Handled.once_ends _

/-- Every request keeps the table. -/
theorem Kept.handles (hx : Kept x) {request : GoString}
    (hregular : Regular x (.loop m (.request request))) :
    HandlingKept x request (handleRequest cfg m x.mgr request).ending := by
  obtain ⟨hstart, hnames⟩ := hregular
  have hother : actionOf (requestMapOf request) ≠ .unsubscribe →
      actionOf (requestMapOf request) ≠ .killSubscriptions →
      actionOf (requestMapOf request) ≠ .cancelSubscription →
      HandlingKept x request (handleRequest cfg m x.mgr request).ending := by
    intro hunsubscribe hkill hcancel
    cases hending : (handleRequest cfg m x.mgr request).ending with
    | back s' =>
      exact hx.of_effect (handleRequest_effect hending) ⟨hunsubscribe, hkill, hcancel⟩ hstart
    | panic =>
      intro e _
      unfold names
      cases haction : actionOf (requestMapOf request) <;> simp_all
    | hang => exact absurd hending (handleRequest_ends cfg m x.mgr hkill)
  cases haction : actionOf (requestMapOf request) with
  | unsubscribe =>
    have hstops := hx.of_stopsNamed (hx.unsubscribes (m := m) haction hnames)
    simpa only [handleRequest, haction] using hstops
  | killSubscriptions =>
    have hstops := hx.of_stopsNamed (hx.kills haction hnames)
    simpa only [handleRequest, haction] using hstops
  | cancelSubscription =>
    have hstops := hx.of_stopsNamed (hx.cancels (m := m) haction hnames)
    simpa only [handleRequest, haction] using hstops
  | set => exact hother (by simp [haction]) (by simp [haction]) (by simp [haction])
  | get => exact hother (by simp [haction]) (by simp [haction]) (by simp [haction])
  | subscribe => exact hother (by simp [haction]) (by simp [haction]) (by simp [haction])
  | other => exact hother (by simp [haction]) (by simp [haction]) (by simp [haction])

theorem timebased_of_sameSubscriptions {l l' : List SubscriptionState}
    (h : List.Forall₂ SameSubscription l l') :
    (l'.filter isTimebased).map SubscriptionState.subscriptionId =
      (l.filter isTimebased).map SubscriptionState.subscriptionId := by
  induction h with
  | nil => rfl
  | @cons e e' l l' he _ ih =>
    have hid : e'.subscriptionId = e.subscriptionId := by rw [he.2]
    have hfilter : isTimebased e' = isTimebased e := by
      unfold isTimebased
      rw [he.2]
    rw [List.filter_cons, List.filter_cons, hfilter]
    split
    · rw [List.map_cons, List.map_cons, hid, ih]
    · exact ih

theorem Kept.trigger (hx : Kept x) {r : Event} {messages : List GoString}
    (h : handleTrigger cfg m x.mgr r = some (s', messages)) :
    Kept { x with mgr := s' } ∧ ActsOnOwn x { x with mgr := s' } := by
  obtain ⟨hlist, hid, hnumbers, -⟩ := handleTrigger_some hx.listed.threads h
  obtain ⟨hids, hold⟩ := sameSubscriptions hlist
  have hlisted : Listed s' := by
    refine ⟨hid ▸ hx.listed.positive, ?_, hids ▸ hx.listed.nodup, ?_⟩
    · intro e' he'
      obtain ⟨e, he, -, hsame⟩ := hold e' he'
      rw [hsame, hid]
      exact hx.listed.entries e he
    · intro e' he'
      obtain ⟨e, he, hle, -⟩ := hold e' he'
      exact hle.trans (hx.listed.threads e he)
  have hslots : Recording.slot { x with mgr := s' } = x.slot := by
    funext i
    simp only [Recording.slot, hnumbers, (handleTrigger_frame h).1]
  have howners : owners { x with mgr := s' } = owners x := by
    have hintervals := congrArg (List.map TickerOwner.interval)
      (timebased_of_sameSubscriptions hlist)
    rw [List.map_map, List.map_map] at hintervals
    exact congrArg (· ++ _) hintervals
  obtain ⟨hx', hstops⟩ := hx.congr hslots (fun o => by rw [howners]) hlisted
  exact ⟨hx', hstops.actsOnOwn⟩

theorem Kept.stopped (hx : Kept x) (status : Status) : Kept { x with status } :=
  ⟨⟨hx.tickers.owned, hx.tickers.runs⟩, hx.listed⟩

theorem triggerStep_status {x : Service} {r : Event} (hx : x.status ≠ .hanging) :
    (triggerStep cfg m x r).1.status ≠ .hanging := by
  unfold triggerStep
  cases handleTrigger cfg m x.mgr r with
  | none => exact nofun
  | some p =>
    dsimp only
    split
    · exact hx
    · exact nofun

/-- What a pass of the loop did, by what it received. -/
theorem loopStep_cases {r : Event} {output : Output}
    (h : loopStep cfg x m r = some (x', output)) :
    (∃ request, r = .request request ∧
      match (handleRequest cfg m x.mgr request).ending with
      | .back s' => x' = { x with mgr := s', status := x'.status } ∧ x'.status ≠ .panicked
      | .hang => x' = { x with mgr := stuckState x.mgr r, status := .hanging }
      | .panic => x' = { x with status := .panicked }) ∨
    (∀ request, r ≠ .request request) ∧ (x' = { x with status := x'.status } ∨
      ∃ s' messages, handleTrigger cfg m x.mgr r = some (s', messages) ∧
        x' = { x with mgr := s', status := x'.status }) := by
  rw [loopStep, Option.map_eq_some_iff] at h
  obtain ⟨⟨after, output'⟩, hstep, hx'⟩ := h
  obtain ⟨rfl, rfl⟩ := Prod.mk.inj hx'
  unfold serviceStep at hstep
  split at hstep
  · next m' request heq =>
    obtain ⟨rfl, rfl⟩ := Prod.mk.inj heq
    refine .inl ⟨request, rfl, ?_⟩
    split at hstep
    · simp at hstep
    · rw [Option.some.injEq, requestStep] at hstep
      dsimp only [Recording.service] at hstep
      cases hending : (handleRequest cfg m x.mgr request).ending with
      | back s' =>
        rw [hending] at hstep
        obtain ⟨rfl, rfl⟩ := Prod.mk.inj hstep
        have halive := statusAfter_alive (s := s') request
          (handleRequest cfg m x.mgr request).answers
        exact ⟨by rw [if_neg halive.2], halive.1⟩
      | panic =>
        rw [hending] at hstep
        obtain ⟨rfl, rfl⟩ := Prod.mk.inj hstep
        rfl
      | hang =>
        rw [hending] at hstep
        obtain ⟨rfl, rfl⟩ := Prod.mk.inj hstep
        rfl
  · next m' r' hnot heq =>
    obtain ⟨rfl, rfl⟩ := Prod.mk.inj heq
    refine .inr ⟨hnot, ?_⟩
    split at hstep
    · simp at hstep
    · next hstatus =>
      rw [not_or, not_and_or, not_not, not_not] at hstatus
      have hrunning : x.status ≠ .hanging := by
        intro hhanging
        rcases hstatus.2 with hstatus | hstatus
        · exact absurd (hstatus.symm.trans hhanging) (by simp)
        · exact absurd (hstatus.symm.trans hhanging) (by simp)
      have hafter : (triggerStep cfg m x.service r).1 = after :=
        congrArg Prod.fst (Option.some.inj hstep)
      have hne : after.status ≠ .hanging := hafter ▸ triggerStep_status (x := x.service) hrunning
      rw [if_neg hne]
      rcases triggerStep_mgr cfg m x.service r with hmgr | ⟨messages, htrigger⟩
      · rw [hafter] at hmgr
        rw [hmgr]
        exact .inl rfl
      · rw [hafter] at htrigger
        exact .inr ⟨after.mgr, messages, htrigger, rfl⟩

theorem Kept.loopStep (hx : Kept x) {r : Event} {output : Output}
    (hregular : Regular x (.loop m r)) (h : ServiceMgr.loopStep cfg x m r = some (x', output)) :
    Kept x' ∧ ActsOnOwn x x' ∧ IndexesFound ⟨x, .loop m r, x', output⟩ := by
  rcases loopStep_cases h with ⟨request, rfl, hcase⟩ | ⟨hnot, hcase⟩
  · have hkept : HandlingKept x request (handleRequest cfg m x.mgr request).ending :=
      hx.handles hregular
    cases hending : (handleRequest cfg m x.mgr request).ending with
    | back s' =>
      rw [hending] at hcase hkept
      obtain ⟨heq, hstatus⟩ := hcase
      rw [heq]
      exact ⟨hkept.1.stopped _, hkept.2, fun _ => hstatus⟩
    | hang =>
      rw [hending] at hcase hkept
      dsimp only at hcase
      subst hcase
      exact ⟨hkept.1.stopped _, hkept.2, fun _ => nofun⟩
    | panic =>
      rw [hending] at hcase hkept
      dsimp only at hcase
      subst hcase
      refine ⟨hx.stopped _, ActsOnOwn.of_slots rfl, ?_⟩
      rintro ⟨e, he, hnamed⟩
      exact absurd ((hkept e he).symm.trans hnamed) nofun
  · have hfound : IndexesFound ⟨x, .loop m r, x', output⟩ := by
      unfold IndexesFound
      split
      · next heq => exact absurd (RecordingEvent.loop.inj heq).2 (hnot _)
      · trivial
      · next heq => exact absurd heq nofun
    rcases hcase with heq | ⟨s', messages, htrigger, heq⟩
    · rw [heq] at hfound ⊢
      exact ⟨hx.stopped _, ActsOnOwn.of_slots rfl, hfound⟩
    · obtain ⟨hx', hacts⟩ := hx.trigger htrigger
      rw [heq] at hfound ⊢
      exact ⟨hx'.stopped _, hacts, hfound⟩

theorem modifySignal_owners {k : ℕ} (f : HistoryList → HistoryList) (o : TickerOwner) :
    o ∈ owners (x.modifySignal k f) ↔
      if o = .signal k then ∃ signal, x.historyList[k]? = some signal ∧ (f signal).status ≠ 0
      else o ∈ owners x := by
  cases o with
  | interval id =>
    rw [if_neg nofun]
    simp [Recording.modifySignal]
  | signal j =>
    rw [signal_mem_owners]
    by_cases hjk : j = k
    · subst hjk
      simp [Recording.modifySignal]
    · rw [if_neg fun heq => hjk (TickerOwner.signal.inj heq), signal_mem_owners]
      simp [Recording.modifySignal, Ne.symm hjk]

theorem getHistoryListIndex_some {path : GoString} {k : ℕ}
    (h : getHistoryListIndex path x.historyList = some k) :
    ∃ signal, x.historyList[k]? = some signal := by
  obtain ⟨hlt, -⟩ := List.findIdx?_eq_some_iff_getElem.mp h
  exact ⟨_, List.getElem?_eq_getElem hlt⟩

theorem Kept.startsHistory (hx : Kept x) {k : ℕ} {frequency : ℤ} {f : HistoryList → HistoryList}
    {signal : HistoryList} (hget : x.historyList[k]? = some signal)
    (hf : ∀ signal, (f signal).status = 1) (hstart : HistoryStartable x k frequency)
    (h : activateHistory (x.modifySignal k f) k frequency = some x') :
    Kept x' ∧ ActsOnOwn x x' := by
  obtain ⟨hfree, hunheld⟩ := hstart
  obtain ⟨hpositive, hle, hhistory, hlist, hid, i, period, hi, hslots⟩ :=
    activateHistory_slot (x := x.modifySignal k f) hfree h
  obtain ⟨hzero, hnew⟩ := hunheld ⟨hpositive, hle⟩
  have hnot : TickerOwner.signal k ∉ owners x := fun ho => hnew _ ho rfl
  have howners : ∀ o, o ∈ owners x' ↔ o ∈ owners x ∨ o = .signal k := by
    intro o
    rw [owners_of_lists _ hlist hhistory, modifySignal_owners]
    split
    · next hsignal =>
      subst hsignal
      exact iff_of_true ⟨signal, hget, by rw [hf]; decide⟩ (.inr rfl)
    · next hother => simp [hother]
  have hlisted : Listed x'.mgr :=
    hx.listed.of_subperm hid (by rw [hlist]; exact List.Subperm.refl _)
  refine ⟨⟨hx.tickers.start hi hzero hnew howners hslots, hlisted⟩, fun j => ?_⟩
  exact (SlotStarted.of_update ((howners _).mpr (.inr rfl)) hnot hi hslots j).imp_right .inr

theorem Kept.stopsHistory (hx : Kept x) {k : ℕ} {f : HistoryList → HistoryList}
    (ho : .signal k ∈ owners x) (hf : ∀ signal, (f signal).status = 0)
    (h : deactivateHistory (x.modifySignal k f) k = some x') : Kept x' ∧ ActsOnOwn x x' := by
  obtain ⟨hhistory, hlist, hid, -, i, hi, hslots⟩ := deactivateHistory_slot h
  have howners : ∀ o, o ∈ owners x' ↔ o ∈ owners x ∧ o ≠ .signal k := by
    intro o
    rw [owners_of_lists _ hlist hhistory, modifySignal_owners]
    split
    · next hsignal =>
      refine iff_of_false ?_ fun h => h.2 hsignal
      rintro ⟨signal, -, hstatus⟩
      exact hstatus (hf signal)
    · next hother => simp [hother]
  have hlisted : Listed x'.mgr :=
    hx.listed.of_subperm hid (by rw [hlist]; exact List.Subperm.refl _)
  have hnumber : (x.slot i).number = (TickerOwner.signal k).number := tickerSlot_some hi
  refine ⟨⟨hx.tickers.stop ho hnumber howners hslots, hlisted⟩, fun j => ?_⟩
  exact (SlotStopped.of_update ho (fun hlive => ((howners _).mp hlive).2 rfl) hnumber hslots
    j).imp_right .inl

theorem Kept.controlled (hx : Kept x) (h : Controlled x requestMap x')
    (hstart : ∀ r ∈ startOf requestMap,
      ∃ k ∈ getHistoryListIndex r.1 x.historyList, HistoryStartable x k r.2)
    (hstop : ∀ path ∈ stopOf requestMap,
      ∃ k ∈ getHistoryListIndex path x.historyList, .signal k ∈ owners x) :
    Kept x' ∧ ActsOnOwn x x' := by
  cases h with
  | same => exact ⟨hx, ActsOnOwn.of_slots rfl⟩
  | @edit k f hf =>
    have howners : ∀ o, o ∈ owners (x.modifySignal k f) ↔ o ∈ owners x := by
      intro o
      rw [modifySignal_owners]
      split
      · next hsignal =>
        subst hsignal
        rw [signal_mem_owners]
        simp only [hf]
      · exact Iff.rfl
    have hkept : Kept (x.modifySignal k f) ∧ _ := hx.congr rfl howners hx.listed
    exact ⟨hkept.1, hkept.2.actsOnOwn⟩
  | @start path frequency k _ haction hpath hfrequency hk hactivate =>
    have hrequest : startOf requestMap = some (path, frequency) := by
      simp [startOf, haction, hpath, asString, hfrequency]
    obtain ⟨k', hk', hstartable⟩ := hstart _ hrequest
    obtain rfl : k = k' := Option.some.inj (hk.symm.trans hk')
    obtain ⟨signal, hget⟩ := getHistoryListIndex_some hk
    exact hx.startsHistory hget (fun _ => rfl) hstartable hactivate
  | @stop path k _ haction hpath hk hdeactivate =>
    have hrequest : stopOf requestMap = some path := by
      simp [stopOf, haction, hpath, asString]
    obtain ⟨k', hk', ho⟩ := hstop _ hrequest
    obtain rfl : k = k' := Option.some.inj (hk.symm.trans hk')
    exact hx.stopsHistory ho (fun _ => rfl) hdeactivate

/-- A stop request is handled by its case of the switch. -/
theorem processHistoryCtrl_stop {histCtrlReq path : GoString} (hexists : x.listExists = true)
    (hstop : stopOf (requestMapOf histCtrlReq) = some path) :
    processHistoryCtrl x histCtrlReq = stopCase x (getHistoryListIndex path x.historyList) := by
  simp only [stopOf, Option.bind_eq_bind, Option.bind_eq_some_iff] at hstop
  obtain ⟨path', hpath, hstop⟩ := hstop
  split at hstop
  · next haction =>
    obtain rfl := Option.some.inj hstop
    have hcases : ∃ action, asString (valueAt (requestMapOf histCtrlReq) (str "action")) =
        some action ∧ action = str "stop" := by
      cases htext : asString (valueAt (requestMapOf histCtrlReq) (str "action")) with
      | none =>
        rw [textMember, htext] at haction
        exact absurd haction (by decide)
      | some action =>
        rw [textMember, htext] at haction
        exact ⟨action, rfl, haction⟩
    obtain ⟨action, htext, rfl⟩ := hcases
    have hnull : ¬ (isNull (valueAt (requestMapOf histCtrlReq) (str "action")) ∨
        isNull (valueAt (requestMapOf histCtrlReq) (str "path"))) := by
      rw [asString_eq_some.mp htext, asString_eq_some.mp hpath]
      simp [isNull]
    rw [processHistoryCtrl, if_neg (by simp [hexists])]
    dsimp only
    rw [if_neg hnull, hpath, htext]
    rfl
  · simp at hstop

theorem Kept.histCtrl (hx : Kept x) {histCtrlReq : GoString} {output : Output}
    (hstatus : x.status ≠ .panicked) (hregular : Regular x (.histCtrl histCtrlReq))
    (h : histCtrlStep x histCtrlReq = (x', output)) :
    Kept x' ∧ ActsOnOwn x x' ∧ IndexesFound ⟨x, .histCtrl histCtrlReq, x', output⟩ := by
  have hfound : x.listExists = true →
      (stopOf (requestMapOf histCtrlReq)).isSome = true → x'.status ≠ .panicked := by
    intro hexists hstop
    obtain ⟨path, hpath⟩ := Option.isSome_iff_exists.mp hstop
    obtain ⟨k, hk, ho⟩ := (hregular hexists).2 path hpath
    have hcase := processHistoryCtrl_stop hexists hpath
    rw [Option.mem_def.mp hk] at hcase
    obtain ⟨x₁, hx₁⟩ := hx.tickers.deactivateHistory ho
      (x.modifySignal k fun signal => { signal with status := 0 }).historyList
    have hstopped : processHistoryCtrl x histCtrlReq = some (x₁, str "200 OK") := by
      rw [hcase, stopCase]
      simp only [Option.bind_eq_bind, Option.bind_some]
      rw [show deactivateHistory (x.modifySignal k fun signal => { signal with status := 0 }) k =
        some x₁ from hx₁, Option.bind_some]
    rw [histCtrlStep, hstopped] at h
    obtain ⟨rfl, -⟩ := Prod.mk.inj h
    obtain ⟨-, -, -, hsame, -⟩ := deactivateHistory_slot hx₁
    rw [hsame]
    exact hstatus
  have hindexes : IndexesFound ⟨x, .histCtrl histCtrlReq, x', output⟩ := by
    intro hexists
    refine ⟨fun r hr hnone => ?_, hfound hexists⟩
    obtain ⟨k, hk, -⟩ := (hregular hexists).1 r hr
    exact absurd (hnone.symm.trans hk) (by simp)
  unfold histCtrlStep at h
  cases hcontrol : processHistoryCtrl x histCtrlReq with
  | none =>
    rw [hcontrol] at h
    obtain ⟨rfl, -⟩ := Prod.mk.inj h
    exact ⟨hx.stopped _, ActsOnOwn.of_slots rfl, hindexes⟩
  | some r =>
    obtain ⟨x₁, answer⟩ := r
    rw [hcontrol] at h
    obtain ⟨rfl, -⟩ := Prod.mk.inj h
    by_cases hexists : x.listExists = true
    · obtain ⟨hstart, hstop⟩ := hregular hexists
      obtain ⟨hx', hacts⟩ :=
        hx.controlled (processHistoryCtrl_controlled hcontrol) hstart hstop
      exact ⟨hx', hacts, hindexes⟩
    · rw [processHistoryCtrl, if_pos (by simpa using hexists)] at hcontrol
      obtain ⟨rfl, -⟩ := Prod.mk.inj (Option.some.inj hcontrol)
      exact ⟨hx, ActsOnOwn.of_slots rfl, hindexes⟩

/-- A regular move keeps the table. -/
theorem Kept.step {y : RecordingMove} (hx : Kept y.before)
    (hregular : Regular y.before y.event) (hy : y.Of (recordingStep cfg)) :
    Kept y.after ∧ ActsOnOwn y.before y.after ∧ IndexesFound y := by
  obtain ⟨before, event, after, output⟩ := y
  cases event with
  | loop m r => exact hx.loopStep hregular hy
  | histCtrl histCtrlReq =>
    simp only [Move.Of, recordingStep] at hy
    split at hy
    · simp at hy
    · next hrunning =>
      rw [not_or] at hrunning
      exact hx.histCtrl hrunning.2 hregular (Option.some.inj hy)

end

/-- In every run of regular moves the ticker table is kept. -/
theorem ticker_table_kept {cfg : Config} {h : RecordingHistory} {x : Recording}
    (hrun : RecordingRun cfg h x)
    (hregular : Always (fun _ y => Regular y.before y.event) h) : TickerTableKept h x := by
  have hkept : Kept x ∧
      Always (fun _ y => ActsOnOwn y.before y.after ∧ IndexesFound y) h := by
    refine hrun.invariant_of (I := fun h x => Kept x ∧
      Always (fun _ y => ActsOnOwn y.before y.after ∧ IndexesFound y) h) hregular ?_ ?_
    · rintro x ⟨leafPaths, rfl⟩
      exact ⟨kept_initialRecording leafPaths, trivial⟩
    · intro h y hy hstep hregular
      obtain ⟨hafter, hmove⟩ := hy.1.step hregular hstep
      exact ⟨hafter, hmove, hy.2⟩
  exact ⟨hkept.1.tickers, hkept.1.tickers.stopsExact, hkept.2⟩

/-- A control request for the history of a path. -/
def histCtrlRequest (action path : String) : GoString :=
  str ("\x7b\"action\":\"" ++ action ++ "\", \"path\":\"" ++ path ++
    "\", \"frequency\":\"3600\"\x7d")

def recordingConfig : Config where
  stateDbNone := false
  historySupport := true

instance (x : Recording) : DecidablePred (Regular x)
  | .loop _ (.request _) => inferInstanceAs (Decidable (_ ∧ _))
  | .loop _ .dummyTick => .isTrue trivial
  | .loop _ (.interval _) => .isTrue trivial
  | .loop _ (.clPack _ _) => .isTrue trivial
  | .loop _ .subscriptTick => .isTrue trivial
  | .loop _ .capture => .isTrue trivial
  | .histCtrl _ => inferInstanceAs (Decidable (_ → _))

instance : DecidablePred IndexesFound
  | ⟨_, .loop _ (.request _), _, _⟩ => inferInstanceAs (Decidable (_ → _))
  | ⟨_, .loop _ .dummyTick, _, _⟩ => .isTrue trivial
  | ⟨_, .loop _ (.interval _), _, _⟩ => .isTrue trivial
  | ⟨_, .loop _ (.clPack _ _), _, _⟩ => .isTrue trivial
  | ⟨_, .loop _ .subscriptTick, _, _⟩ => .isTrue trivial
  | ⟨_, .loop _ .capture, _, _⟩ => .isTrue trivial
  | ⟨_, .histCtrl _, _, _⟩ => inferInstanceAs (Decidable (_ → _))

/-- A run on three leaf paths, given by what the selects receive and a property of its
history. -/
theorem exists_recordingRun (es : List RecordingEvent) (p : RecordingHistory → Prop)
    (hes : ∃ r ∈ replay (recordingStep recordingConfig) []
      (initialRecording (some [str "Vehicle.A", str "Vehicle.B", str "Vehicle.C"])) es, p r.1) :
    ∃ h x, RecordingRun recordingConfig h x ∧ p h :=
  exists_run_of_replay es p ⟨_, rfl⟩ hes

/-- An interval subscription and a recording are started, and both are stopped. -/
theorem mixed_tickers_kept : ∃ h x, RecordingRun recordingConfig h x ∧ h.length = 4 ∧
    TickerTableKept h x := by
  obtain ⟨h, x, hrun, hlength, hregular⟩ := exists_recordingRun
    [.loop sampleMoment (.request (intervalRequest "1000")),
      .histCtrl (histCtrlRequest "start" "Vehicle.C"),
      .loop sampleMoment (.request unsubscribeRequestText),
      .histCtrl (histCtrlRequest "stop" "Vehicle.C")]
    (fun h => h.length = 4 ∧ Always (fun _ y => Regular y.before y.event) h) (by decide +kernel)
  exact ⟨h, x, hrun, hlength, ticker_table_kept hrun hregular⟩

/-- The stop of a subscription with the period 0, which has no ticker, uses the index -1. -/
theorem unstarted_ticker_stopped : ¬ ∀ cfg h x, RecordingRun cfg h x → TickerTableKept h x := by
  intro hall
  obtain ⟨h, x, hrun, hbad⟩ := exists_recordingRun
    [.loop sampleMoment (.request (intervalRequest "0")),
      .loop sampleMoment (.request unsubscribeRequestText)]
    (fun h => ¬ Always (fun _ y => IndexesFound y) h) (by decide +kernel)
  exact hbad ((hall recordingConfig h x hrun).2.2.imp fun _ _ hy => hy.2)

end VissServer.ServiceMgr
