import VissServer.ServiceMgr.Answers
import VissServer.ServiceMgr.Table

/-!
The loop of internal-killsubscriptions: it ends, with every subscription of the session
gone, unless a curve logging subscription of the session keeps it going or a ticker to
stop is missing.
-/
namespace VissServer.ServiceMgr

open Go Utils Runs

/-- The subscription list as the loop builds it: no two subscriptions have the same id, and
none has the id of a free ticker slot. -/
structure Numbered (s : State) : Prop where
  distinct : DistinctIds s
  nonzero : ∀ e ∈ s.subscriptionList, e.subscriptionId ≠ 0

/-- deactivateInterval finds a ticker to stop. -/
def HasTicker (s : State) (id : ℤ) : Prop :=
  ∃ i, tickerSlot s id = some i ∧ s.subscriptionTicker i ≠ none

def isTimebased (e : SubscriptionState) : Bool := getOpType e.filterList (str "timebased")

/-- The entries of the session can be removed. -/
def Removable (s : State) (routerId : GoString) : Prop :=
  ∀ e ∈ s.subscriptionList, e.routerId = routerId →
    isCurveLog e = false ∧ (isTimebased e → HasTicker s e.subscriptionId)

/-- The handling ends, the session has no entry then, and the other entries are the same. -/
def KillsExactly (s : State) (routerId : GoString) (handled : Handled) : Prop :=
  ∃ s', handled.ending = .back s' ∧ (∀ e ∈ s'.subscriptionList, e.routerId ≠ routerId) ∧
    ((entries s').filter fun e => e.routerId ≠ routerId) =
      (entries s).filter fun e => e.routerId ≠ routerId

section

variable {s s' : State}

theorem Numbered.of_filter {p : SubscriptionState → Prop} [DecidablePred p] (hs : Numbered s)
    (h : entries s' = (entries s).filter p) : Numbered s' where
  distinct := hs.distinct.of_filter h
  nonzero e he := by
    have hmem : e ∈ (entries s).filter p := h ▸ Multiset.mem_coe.mpr he
    exact hs.nonzero e (Multiset.mem_coe.mp (Multiset.mem_of_mem_filter hmem))

theorem HasTicker.congr {id : ℤ} (hslots : s'.tickerIndexList = s.tickerIndexList)
    (htickers : s'.subscriptionTicker = s.subscriptionTicker) :
    HasTicker s' id ↔ HasTicker s id := by
  unfold HasTicker
  rw [htickers, tickerSlot_congr (s := s) fun i => by rw [hslots]]

/-- The tickers of other subscriptions stay. -/
theorem HasTicker.deactivateInterval_iff {id id' : ℤ} (h : deactivateInterval s id = some s')
    (hne : id' ≠ id) (hzero : id' ≠ 0) : HasTicker s' id' ↔ HasTicker s id' := by
  obtain ⟨i, hi, hothers⟩ : ∃ i, tickerSlot s id = some i ∧ s'.tickerIndexList i = 0 ∧
      ∀ j ≠ i, s'.tickerIndexList j = s.tickerIndexList j ∧
        s'.subscriptionTicker j = s.subscriptionTicker j := by
    simp only [deactivateInterval, Option.bind_eq_bind, Option.bind_eq_some_iff,
      Option.some.injEq] at h
    obtain ⟨i, hi, ticker, -, rfl⟩ := h
    refine ⟨i, hi, Function.update_self .., fun j hij => ⟨?_, ?_⟩⟩
    · exact Function.update_of_ne hij _ _
    · exact Function.update_of_ne hij _ _
  have hslot := tickerSlot_some hi
  have hsame : tickerSlot s' id' = tickerSlot s id' := by
    refine tickerSlot_congr fun j => ?_
    by_cases hij : j = i
    · subst hij
      rw [hothers.1, hslot]
      exact iff_of_false hzero.symm hne.symm
    · rw [(hothers.2 j hij).1]
  unfold HasTicker
  rw [hsame]
  refine exists_congr fun j => and_congr_right fun hj => ?_
  have hij : j ≠ i := by
    rintro rfl
    exact hne ((tickerSlot_some hj).symm.trans hslot)
  rw [(hothers.2 j hij).2]

/-- The trigger of another subscription is as it was. -/
theorem HasTicker.stopTrigger_iff {e : SubscriptionState} {id : ℤ}
    (h : stopTrigger s e = some s') (hne : id ≠ e.subscriptionId) (hzero : id ≠ 0) :
    HasTicker s' id ↔ HasTicker s id := by
  unfold stopTrigger at h
  split at h
  · exact HasTicker.deactivateInterval_iff h hne hzero
  · split at h
    · obtain rfl := Option.some.inj h
      exact HasTicker.congr rfl rfl
    · obtain rfl := Option.some.inj h
      rfl

theorem HasTicker.deactivateEntry_iff {index : ℕ} {e : SubscriptionState} {id : ℤ}
    (h : deactivateEntry s index e = some s') (hne : id ≠ e.subscriptionId) (hzero : id ≠ 0) :
    HasTicker s' id ↔ HasTicker s id := by
  rw [deactivateEntry, Option.map_eq_some_iff] at h
  obtain ⟨s₁, hstop, rfl⟩ := h
  rw [← HasTicker.stopTrigger_iff hstop hne hzero]
  split
  · rfl
  · exact HasTicker.congr rfl rfl

/-- The deactivation by an id is that of the entry with the id. -/
theorem deactivateSubscriptionId_mem {e : SubscriptionState} (hs : DistinctIds s)
    (he : e ∈ s.subscriptionList) :
    ∃ index, s.subscriptionList[index]? = some e ∧
      deactivateSubscriptionId s e.subscriptionId = (deactivateEntry s index e).map some := by
  rcases deactivateSubscriptionId_cases s e.subscriptionId with
    ⟨hnone, -⟩ | ⟨index, e', hget, hid, -, heq⟩
  · have hself := List.find?_eq_none.mp hnone e he
    simp at hself
  · have hsame : e' = e := List.inj_on_of_nodup_map hs (List.mem_of_getElem? hget) he hid
    subst hsame
    exact ⟨index, hget, heq⟩

/-- What one pass of the loop does to a session that has an entry: the outcome is that of
the deactivation of the entry. -/
theorem scanAndRemoveListItem_found {routerId : GoString} {e : SubscriptionState}
    (hs : DistinctIds s)
    (hfind : s.subscriptionList.find? (fun e => e.routerId = routerId) = some e) :
    ∃ index, s.subscriptionList[index]? = some e ∧
      scanAndRemoveListItem s routerId =
        (deactivateEntry s index e).map fun s' => (true, s') := by
  obtain ⟨index, hget, heq⟩ := deactivateSubscriptionId_mem hs (List.mem_of_find?_eq_some hfind)
  refine ⟨index, hget, ?_⟩
  rw [scanAndRemoveListItem, hfind]
  dsimp only
  rw [heq]
  cases deactivateEntry s index e <;> rfl

/-- The entries of the session can still be removed when one of them is. -/
theorem removable_deactivateEntry_iff {routerId : GoString} {index : ℕ} {e : SubscriptionState}
    (hs : Numbered s) (hget : s.subscriptionList[index]? = some e)
    (hplain : isCurveLog e = false) (h : deactivateEntry s index e = some s') :
    Removable s' routerId ↔ ∀ e' ∈ s.subscriptionList, e' ≠ e → e'.routerId = routerId →
      isCurveLog e' = false ∧ (isTimebased e' → HasTicker s e'.subscriptionId) := by
  have hentries := deactivateEntry_entries hs.distinct hget h
  have hmem : e ∈ s.subscriptionList := List.mem_of_getElem? hget
  have hothers : ∀ e', e' ∈ s'.subscriptionList ↔ e' ∈ s.subscriptionList ∧ e' ≠ e := by
    intro e'
    have hiff : e' ∈ entries s' ↔ _ := hentries ▸ Multiset.mem_filter
    rw [entries, entries, Multiset.mem_coe, Multiset.mem_coe] at hiff
    rw [hiff]
    refine and_congr_right fun he' => ?_
    constructor
    · rintro hkeep rfl
      exact hkeep ⟨rfl, hplain⟩
    · rintro hne ⟨hid, -⟩
      exact hne (List.inj_on_of_nodup_map hs.distinct he' hmem hid)
  have hticker : ∀ e' ∈ s.subscriptionList, e' ≠ e →
      (HasTicker s' e'.subscriptionId ↔ HasTicker s e'.subscriptionId) := by
    intro e' he' hne
    refine HasTicker.deactivateEntry_iff h (fun hid => hne ?_) (hs.nonzero e' he')
    exact List.inj_on_of_nodup_map hs.distinct he' hmem hid
  constructor
  · intro hall e' he' hne hrouter
    rw [← hticker e' he' hne]
    exact hall e' ((hothers e').mpr ⟨he', hne⟩) hrouter
  · intro hall e' he' hrouter
    obtain ⟨he', hne⟩ := (hothers e').mp he'
    rw [hticker e' he' hne]
    exact hall e' he' hne hrouter

/-- A loop that ends has removed every entry of the session. -/
theorem removable_of_killLoop {routerId : GoString} {passes : ℕ} (hs : Numbered s)
    (h : killLoop routerId passes s = .back s') : Removable s routerId := by
  induction passes generalizing s with
  | zero => simp [killLoop] at h
  | succ passes ih =>
    rw [killLoop] at h
    cases hfind : s.subscriptionList.find? fun e => e.routerId = routerId with
    | none =>
      intro e he hrouter
      have hfound := List.find?_eq_none.mp hfind e he
      simp [hrouter] at hfound
    | some e =>
      obtain ⟨index, hget, hscan⟩ := scanAndRemoveListItem_found hs.distinct hfind
      have hrouter : e.routerId = routerId := by simpa using List.find?_some hfind
      rw [hscan] at h
      cases hentry : deactivateEntry s index e with
      | none => simp [hentry] at h
      | some s₁ =>
        rw [hentry, Option.map_some] at h
        dsimp only at h
        have hentries := deactivateEntry_entries hs.distinct hget hentry
        have hrest := ih (hs.of_filter hentries) h
        have hplain : isCurveLog e = false := by
          by_contra hcurve
          have hmem : e ∈ entries s₁ := by
            rw [hentries, Multiset.mem_filter]
            exact ⟨Multiset.mem_coe.mpr (List.mem_of_getElem? hget), fun h => hcurve h.2⟩
          exact hcurve (hrest e (Multiset.mem_coe.mp hmem) hrouter).1
        have hself : isTimebased e → HasTicker s e.subscriptionId := by
          refine (deactivateEntry_isSome s index e).mp ?_
          rw [hentry]
          rfl
        intro e' he' hrouter'
        by_cases heq : e' = e
        · rw [heq]
          exact ⟨hplain, hself⟩
        · exact (removable_deactivateEntry_iff hs hget hplain hentry).mp hrest e' he' heq hrouter'

/-- A loop over entries that can be removed ends when it has removed them. -/
theorem killLoop_of_removable {routerId : GoString} {passes : ℕ} (hs : Numbered s)
    (h : Removable s routerId) (hpasses : s.subscriptionList.length < passes) :
    ∃ s', killLoop routerId passes s = .back s' := by
  induction passes generalizing s with
  | zero => omega
  | succ passes ih =>
    rw [killLoop]
    cases hfind : s.subscriptionList.find? fun e => e.routerId = routerId with
    | none =>
      refine ⟨s, ?_⟩
      rw [scanAndRemoveListItem, hfind]
    | some e =>
      obtain ⟨index, hget, hscan⟩ := scanAndRemoveListItem_found hs.distinct hfind
      have hmem := List.mem_of_find?_eq_some hfind
      have hrouter : e.routerId = routerId := by simpa using List.find?_some hfind
      obtain ⟨hplain, hticker⟩ := h e hmem hrouter
      obtain ⟨s₁, hentry⟩ :=
        Option.isSome_iff_exists.mp ((deactivateEntry_isSome s index e).mpr hticker)
      have hentries := deactivateEntry_entries hs.distinct hget hentry
      have hrest : Removable s₁ routerId :=
        (removable_deactivateEntry_iff hs hget hplain hentry).mpr
          fun e' he' _ hrouter' => h e' he' hrouter'
      have hlength : s₁.subscriptionList.length + 1 = s.subscriptionList.length := by
        have hlist := (deactivateEntry_some hget hentry).1
        rw [if_neg (by simpa [isCurveLog] using hplain)] at hlist
        exact hlist.length_eq
      rw [hscan, hentry, Option.map_some]
      exact ih (hs.of_filter hentries) hrest (by omega)

end

theorem handleRequest_kill (cfg : Config) (m : Moment) (s : State) {request routerId : GoString}
    (haction : actionOf (requestMapOf request) = .killSubscriptions)
    (hrouter : valueAt (requestMapOf request) (str "RouterId") = .str routerId) :
    handleRequest cfg m s request =
      ⟨[], killLoop routerId (s.subscriptionList.length + 1) s⟩ := by
  rw [handleRequest, haction]
  dsimp only
  rw [killSubscriptions, asString_eq_some.mpr hrouter]

/-- The subscriptions of a session are killed, and nothing else, if and only if none of
them logs curves and none lacks the ticker of its interval. -/
theorem kill_subscriptions_iff (cfg : Config) (m : Moment) {s : State} (hs : Numbered s)
    {request routerId : GoString}
    (haction : actionOf (requestMapOf request) = .killSubscriptions)
    (hrouter : valueAt (requestMapOf request) (str "RouterId") = .str routerId) :
    KillsExactly s routerId (handleRequest cfg m s request) ↔ Removable s routerId := by
  rw [handleRequest_kill cfg m s haction hrouter]
  constructor
  · rintro ⟨s', hend, -⟩
    exact removable_of_killLoop hs hend
  · intro hremovable
    obtain ⟨s', hend⟩ := killLoop_of_removable hs hremovable (Nat.lt_succ_self _)
    have hentries := killLoop_entries hs.distinct hend
    refine ⟨s', hend, fun e he hsame => ?_, ?_⟩
    · have hmem : e ∈ entries s' := Multiset.mem_coe.mpr he
      rw [hentries, Multiset.mem_filter] at hmem
      obtain ⟨he', hkeep⟩ := hmem
      exact hkeep ⟨hsame, (hremovable e (Multiset.mem_coe.mp he') hsame).1⟩
    · rw [hentries, Multiset.filter_filter]
      refine Multiset.filter_congr fun e _ => ⟨And.left, fun hne => ⟨hne, fun h => hne h.1⟩⟩

theorem Deactivations.mem {P : State → SubscriptionState → Prop} {s s' : State}
    (h : Deactivations P s s') : ∀ e ∈ s'.subscriptionList, e ∈ s.subscriptionList := by
  induction h with
  | none => exact fun _ he => he
  | step hget _ hentry _ ih =>
    intro e he
    have hlist := (deactivateEntry_some hget hentry).1
    split at hlist
    · exact hlist ▸ ih e he
    · exact hlist.mem_iff.mp (List.mem_cons_of_mem _ (ih e he))

/-- A request of the session 1?0 to kill its subscriptions. -/
def killRequest : GoString :=
  str "\x7b\"RouterId\":\"1?0\",\"action\":\"internal-killsubscriptions\"\x7d"

/-- A session with one subscription of the given filter type. -/
def oneSubscription (filterType : String) : State :=
  { initialState with
    subscriptionList := [
      { subscriptionId := 1
        routerId := str "1?0"
        path := [str "Vehicle.Speed"]
        filterList := [{ type := str filterType }]
        latestDataPoint := [] }]
    subscriptionId := 2 }

theorem numbered_oneSubscription (filterType : String) : Numbered (oneSubscription filterType) where
  distinct := List.nodup_singleton _
  nonzero e he := by
    rw [List.mem_singleton.mp he]
    exact Int.one_ne_zero

/-- The subscription of a session to changes of a signal is killed. -/
theorem kill_change_subscription : KillsExactly (oneSubscription "change") (str "1?0")
    (handleRequest sampleConfig sampleMoment (oneSubscription "change") killRequest) := by
  refine (kill_subscriptions_iff sampleConfig sampleMoment (numbered_oneSubscription "change")
    (by decide +kernel) (asString_eq_some.mp (by decide +kernel))).mpr ?_
  intro e he _
  rw [List.mem_singleton.mp he]
  exact ⟨by decide, fun htimebased => absurd htimebased (by decide)⟩

/-- The request of a session with a curve logging subscription is never done. -/
theorem kill_curvelog_subscription : ¬ ∀ cfg m s request routerId, Numbered s →
    actionOf (requestMapOf request) = .killSubscriptions →
    valueAt (requestMapOf request) (str "RouterId") = .str routerId →
    KillsExactly s routerId (handleRequest cfg m s request) := by
  intro hall
  have haction : actionOf (requestMapOf killRequest) = .killSubscriptions := by decide +kernel
  have hrouter : valueAt (requestMapOf killRequest) (str "RouterId") = .str (str "1?0") :=
    asString_eq_some.mp (by decide +kernel)
  obtain ⟨s', hend, -⟩ := hall sampleConfig sampleMoment (oneSubscription "curvelog")
    killRequest (str "1?0") (numbered_oneSubscription "curvelog") haction hrouter
  rw [handleRequest_kill _ _ _ haction hrouter] at hend
  have hremovable := removable_of_killLoop (numbered_oneSubscription "curvelog") hend
  have hplain := (hremovable _ (List.mem_singleton_self _) rfl).1
  exact absurd hplain (by decide)

end VissServer.ServiceMgr
