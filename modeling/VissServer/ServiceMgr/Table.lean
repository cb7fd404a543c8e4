import Mathlib.Data.Multiset.Filter
import VissServer.ServiceMgr.Invariants

/-!
The subscription list without its order, which removals change: which entries each request
takes out of it and puts into it, and what the triggers do to each entry.
-/
namespace VissServer.ServiceMgr

open Go Utils Runs

def entries (s : State) : Multiset SubscriptionState := s.subscriptionList

/-- No two subscriptions have the same id. -/
def DistinctIds (s : State) : Prop :=
  (s.subscriptionList.map SubscriptionState.subscriptionId).Nodup

/-- An entry that deactivateSubscription leaves in the list. -/
def isCurveLog (e : SubscriptionState) : Bool := getOpType e.filterList (str "curvelog")

/-- The entry that a cancel removes: the first of the session to which the first entry with
the gating id belongs. -/
def cancelled (s : State) (requestMap : GoMap Json) : Option SubscriptionState := do
  let gatingId ← asString (valueAt requestMap (str "gatingId"))
  let e ← s.subscriptionList.find? fun e => e.gatingId = gatingId
  if e.routerId = [] then none
  else s.subscriptionList.find? fun e' => e'.routerId = e.routerId

/-- The entries that a request names. -/
def names (s : State) (requestMap : GoMap Json) (e : SubscriptionState) : Bool :=
  match actionOf requestMap with
  | .unsubscribe => (asString (valueAt requestMap (str "subscriptionId"))).any fun id =>
      e.subscriptionId = atoiIgnoringError id
  | .killSubscriptions => asString (valueAt requestMap (str "RouterId")) = some e.routerId
  | .cancelSubscription => (cancelled s requestMap).any fun e' =>
      e.subscriptionId = e'.subscriptionId
  | _ => false

def removes (s : State) (requestMap : GoMap Json) (e : SubscriptionState) : Bool :=
  names s requestMap e && !isCurveLog e

/-- The entry that a subscribe request adds under the given id. -/
def subscribed (m : Moment) (id : ℤ) (requestMap : GoMap Json) : Option SubscriptionState :=
  if actionOf requestMap = .subscribe then do
    let routerId ← asString (valueAt requestMap (str "RouterId"))
    let pathText ← asString (valueAt requestMap (str "path"))
    let filter ← filterMember requestMap
    let gatingId ← gatingIdMember requestMap
    let paths ← unpackPaths pathText
    let path ← paths.head?
    some
      { subscriptionId := id
        routerId
        path := paths
        filterList := unpackFilter m.range filter
        latestDataPoint := m.vehicleData path
        gatingId }
  else none

/-- An entry after a trigger. -/
def triggered (cfg : Config) (m : Moment) (e : Event) (x : SubscriptionState) :
    SubscriptionState :=
  match e with
  | .subscriptTick => ((checkEntry cfg m x).map Prod.fst).getD x
  | .clPack id _ =>
      if x.subscriptionId = id then { x with subscriptionThreads := x.subscriptionThreads - 1 }
      else x
  | _ => x

/-- The process runs and the loop is not caught in a handler. -/
def Service.Alive (x : Service) : Prop := x.status ≠ .panicked ∧ x.status ≠ .hanging
  deriving Decidable

theorem entries_of_perm {s s' : State} (h : s'.subscriptionList.Perm s.subscriptionList) :
    entries s' = entries s := Multiset.coe_eq_coe.mpr h

section

variable {cfg : Config} {m : Moment} {s s' : State} {requestMap : GoMap Json}

theorem DistinctIds.of_filter {p : SubscriptionState → Prop} [DecidablePred p]
    (hs : DistinctIds s) (h : entries s' = (entries s).filter p) : DistinctIds s' := by
  have hle : (entries s').map SubscriptionState.subscriptionId ≤
      (entries s).map SubscriptionState.subscriptionId := by
    rw [h]
    exact Multiset.map_le_map (Multiset.filter_le p _)
  exact Multiset.coe_nodup.mp (Multiset.nodup_of_le hle (Multiset.coe_nodup.mpr hs))

theorem deactivateEntry_entries {index : ℕ} {e : SubscriptionState} (hs : DistinctIds s)
    (hget : s.subscriptionList[index]? = some e) (h : deactivateEntry s index e = some s') :
    entries s' = (entries s).filter fun e' =>
      ¬ (e'.subscriptionId = e.subscriptionId ∧ isCurveLog e' = false) := by
  obtain ⟨hlist, -⟩ := deactivateEntry_some hget h
  have hmem : e ∈ s.subscriptionList := List.mem_of_getElem? hget
  split at hlist
  · next hcurve =>
    rw [entries_of_perm (List.Perm.of_eq hlist), eq_comm, Multiset.filter_eq_self]
    rintro e' he' ⟨hid, hplain⟩
    have heq : e' = e :=
      List.inj_on_of_nodup_map hs (Multiset.mem_coe.mp he') hmem hid
    rw [heq, isCurveLog, hcurve] at hplain
    simp at hplain
  · next hcurve =>
    have hcons : entries s = e ::ₘ entries s' := (Multiset.coe_eq_coe.mpr hlist).symm
    have hnodup : ((e :: s'.subscriptionList).map SubscriptionState.subscriptionId).Nodup :=
      (hlist.map _).nodup_iff.mpr hs
    have hothers : ∀ e' ∈ entries s', e'.subscriptionId ≠ e.subscriptionId := by
      intro e' he' hid
      rw [List.map_cons, List.nodup_cons, List.mem_map] at hnodup
      exact hnodup.1 ⟨e', Multiset.mem_coe.mp he', hid⟩
    have hplain : isCurveLog e = false := by simpa [isCurveLog] using hcurve
    have hself : ¬ ¬ (e.subscriptionId = e.subscriptionId ∧ isCurveLog e = false) :=
      not_not_intro ⟨rfl, hplain⟩
    rw [hcons, Multiset.filter_cons_of_neg (entries s') hself, eq_comm, Multiset.filter_eq_self]
    exact fun e' he' h => hothers e' he' h.1

/-- A deactivation by an id leaves out the entries with the id that are no curve logging
entries. -/
theorem deactivateSubscriptionId_entries {id : ℤ} {r : Option State} (hs : DistinctIds s)
    (h : deactivateSubscriptionId s id = some r) :
    entries (r.getD s) = (entries s).filter fun e' =>
      ¬ (e'.subscriptionId = id ∧ isCurveLog e' = false) := by
  rcases deactivateSubscriptionId_cases s id with ⟨hnone, heq⟩ | ⟨index, e, hget, rfl, -, heq⟩
  · obtain rfl := Option.some.inj (heq.symm.trans h)
    rw [Option.getD_none, eq_comm, Multiset.filter_eq_self]
    rintro e' he' ⟨hid, -⟩
    have hfound := List.find?_eq_none.mp hnone e' (Multiset.mem_coe.mp he')
    simp [hid] at hfound
  · rw [heq, Option.map_eq_some_iff] at h
    obtain ⟨s₁, hentry, rfl⟩ := h
    rw [Option.getD_some]
    exact deactivateEntry_entries hs hget hentry

/-- The scan reports nothing where no entry has the router id. -/
theorem scanAndRemoveListItem_false {routerId : GoString}
    (h : scanAndRemoveListItem s routerId = some (false, s')) :
    s' = s ∧ ∀ e ∈ s.subscriptionList, e.routerId ≠ routerId := by
  unfold scanAndRemoveListItem at h
  split at h
  · next hnone =>
    obtain ⟨-, rfl⟩ := Prod.mk.inj (Option.some.inj h)
    refine ⟨rfl, fun e he hrouter => ?_⟩
    have hfound := List.find?_eq_none.mp hnone e he
    simp [hrouter] at hfound
  · simp only [Option.bind_eq_bind, Option.bind_eq_some_iff, Option.some.injEq,
      Prod.mk.injEq] at h
    obtain ⟨_, -, htrue, -⟩ := h
    simp at htrue

theorem killLoop_entries {routerId : GoString} {passes : ℕ} (hs : DistinctIds s)
    (h : killLoop routerId passes s = .back s') :
    entries s' = (entries s).filter fun e' =>
      ¬ (e'.routerId = routerId ∧ isCurveLog e' = false) := by
  induction passes generalizing s with
  | zero => simp [killLoop] at h
  | succ passes ih =>
    rw [killLoop] at h
    split at h
    · simp at h
    · next s₁ hscan =>
      obtain ⟨rfl, hnone⟩ := scanAndRemoveListItem_false hscan
      obtain rfl := Ending.back.inj h
      rw [eq_comm, Multiset.filter_eq_self]
      exact fun e' he' hnamed => hnone e' (Multiset.mem_coe.mp he') hnamed.1
    · next s₁ hscan =>
      rcases scanAndRemoveListItem_cases hscan with ⟨hfalse, -⟩ | ⟨e, hfind, -, hdeactivate⟩
      · simp at hfalse
      · have hrouter : e.routerId = routerId := by simpa using List.find?_some hfind
        have hmem := List.mem_of_find?_eq_some hfind
        have hstep : entries s₁ = _ := deactivateSubscriptionId_entries hs hdeactivate
        rw [ih (hs.of_filter hstep) h, hstep, Multiset.filter_filter]
        refine Multiset.filter_congr fun e' he' => ⟨And.left, fun hkeep => ⟨hkeep, ?_⟩⟩
        rintro ⟨hid, hplain⟩
        have heq : e' = e :=
          List.inj_on_of_nodup_map hs (Multiset.mem_coe.mp he') hmem hid
        exact hkeep ⟨heq ▸ hrouter, hplain⟩

theorem Deactivations.subscriptionId {P : State → SubscriptionState → Prop}
    (h : Deactivations P s s') : s'.subscriptionId = s.subscriptionId := by
  induction h with
  | none => rfl
  | step hget _ hentry _ ih => rw [ih, (deactivateEntry_some hget hentry).2.1]

/-- Only a subscribe request uses up an id. -/
theorem Effect.subscriptionId (h : Effect m s requestMap s')
    (haction : actionOf requestMap ≠ .subscribe) : s'.subscriptionId = s.subscriptionId := by
  cases h with
  | quiet => rfl
  | subscribe hsubscribe => exact absurd hsubscribe haction
  | unsubscribe _ _ hdeactivations => exact hdeactivations.subscriptionId
  | kill _ _ hdeactivations => exact hdeactivations.subscriptionId
  | cancel _ _ _ _ hdeactivations => exact hdeactivations.subscriptionId

/-- A request that is neither a subscribe nor one of the three that remove entries. -/
theorem handleRequest_quiet {request : GoString}
    (hend : (handleRequest cfg m s request).ending = .back s')
    (h : actionOf (requestMapOf request) = .set ∨ actionOf (requestMapOf request) = .get ∨
      actionOf (requestMapOf request) = .other) : entries s' = entries s := by
  cases handleRequest_effect hend with
  | quiet => rfl
  | subscribe haction => simp [haction] at h
  | unsubscribe haction => simp [haction] at h
  | kill haction => simp [haction] at h
  | cancel haction => simp [haction] at h

theorem unsubscribeRequest_entries {answer : GoString} (hs : DistinctIds s)
    (haction : actionOf requestMap = .unsubscribe)
    (h : unsubscribeRequest m s requestMap = some (s', answer)) :
    entries s' = (entries s).filter fun e => ¬ removes s requestMap e := by
  have hquiet : ∀ e, (asString (valueAt requestMap (str "subscriptionId"))) = none →
      removes s requestMap e = false := by
    intro e hnone
    simp [removes, names, haction, hnone]
  unfold unsubscribeRequest at h
  split at h
  · next hnone =>
    obtain ⟨rfl, -⟩ := Prod.mk.inj (Option.some.inj h)
    refine (Multiset.filter_eq_self.mpr fun e _ => ?_).symm
    simp [hquiet e hnone]
  · next id hid =>
    simp only [Option.bind_eq_bind, Option.bind_eq_some_iff] at h
    obtain ⟨r, hdeactivate, h⟩ := h
    have hfilter := deactivateSubscriptionId_entries hs hdeactivate
    have hs' : entries s' = entries (r.getD s) := by
      split at h
      · obtain ⟨rfl, -⟩ := Prod.mk.inj (Option.some.inj h)
        rfl
      · obtain ⟨rfl, -⟩ := Prod.mk.inj (Option.some.inj h)
        rfl
    rw [hs', hfilter]
    refine Multiset.filter_congr fun e _ => ?_
    simp [removes, names, haction, hid]

theorem killSubscriptions_entries (hs : DistinctIds s)
    (haction : actionOf requestMap = .killSubscriptions)
    (h : (killSubscriptions s requestMap).ending = .back s') :
    entries s' = (entries s).filter fun e => ¬ removes s requestMap e := by
  unfold killSubscriptions at h
  split at h
  · simp at h
  · next routerId hrouter =>
    rw [killLoop_entries hs h]
    refine Multiset.filter_congr fun e _ => ?_
    have hnames : names s requestMap e = true ↔ e.routerId = routerId := by
      simp only [names, haction, hrouter, decide_eq_true_eq, Option.some.injEq]
      exact ⟨Eq.symm, Eq.symm⟩
    simp [removes, hnames]

theorem cancelSubscription_entries (hs : DistinctIds s)
    (haction : actionOf requestMap = .cancelSubscription)
    (h : (cancelSubscription m s requestMap).ending = .back s') :
    entries s' = (entries s).filter fun e => ¬ removes s requestMap e := by
  have hquiet : cancelled s requestMap = none → entries s' = entries s →
      entries s' = (entries s).filter fun e => ¬ removes s requestMap e := by
    intro hnone hsame
    rw [hsame, eq_comm, Multiset.filter_eq_self]
    intro e _
    simp [removes, names, haction, hnone]
  unfold cancelSubscription at h
  split at h
  · simp at h
  · next gatingId hgating =>
    cases hfind : s.subscriptionList.find? fun e => e.gatingId = gatingId with
    | none =>
      simp only [getSubscriptionData, hfind, if_true, Ending.back.injEq] at h
      refine hquiet ?_ (h ▸ rfl)
      simp [cancelled, hgating, hfind]
    | some e₁ =>
      simp only [getSubscriptionData, hfind] at h
      split at h
      · next hempty =>
        refine hquiet ?_ (Ending.back.inj h ▸ rfl)
        simp [cancelled, hgating, hfind, hempty]
      · next hrouter =>
        have hcancelled : cancelled s requestMap =
            s.subscriptionList.find? fun e => e.routerId = e₁.routerId := by
          simp [cancelled, hgating, hfind, hrouter]
        dsimp only at h
        split at h
        · simp at h
        · next removed s₁ hscan =>
          rw [← Ending.back.inj h]
          rcases scanAndRemoveListItem_cases hscan with ⟨rfl, rfl⟩ | ⟨e₂, hfirst, -, hdeactivate⟩
          · obtain ⟨-, hnone⟩ := scanAndRemoveListItem_false hscan
            exact absurd rfl (hnone e₁ (List.mem_of_find?_eq_some hfind))
          · have hfilter := deactivateSubscriptionId_entries (s := (errorAnswer m s _ 2 _).1) hs hdeactivate
            rw [Option.getD_some] at hfilter
            refine hfilter.trans (Multiset.filter_congr fun e _ => ?_)
            have hfound : cancelled s requestMap = some e₂ := hcancelled.trans hfirst
            simp [removes, names, haction, hfound]

theorem subscribed_eq_none {id : ℤ} (h : actionOf requestMap ≠ .subscribe) :
    subscribed m id requestMap = none := if_neg h

theorem subscribed_id {id : ℤ} {e : SubscriptionState}
    (h : subscribed m id requestMap = some e) : e.subscriptionId = id := by
  unfold subscribed at h
  split at h
  · simp only [Option.bind_eq_bind, Option.bind_eq_some_iff, Option.some.injEq] at h
    obtain ⟨_, -, _, -, _, -, _, -, _, -, _, -, rfl⟩ := h
    rfl
  · simp at h

theorem removes_eq_false {e : SubscriptionState}
    (h : actionOf requestMap ≠ .unsubscribe ∧ actionOf requestMap ≠ .killSubscriptions ∧
      actionOf requestMap ≠ .cancelSubscription) : removes s requestMap e = false := by
  obtain ⟨hunsubscribe, hkill, hcancel⟩ := h
  unfold removes names
  cases haction : actionOf requestMap <;> simp_all

/-- The entry that a subscribe request adds is the last one. -/
theorem addSubscription_entries (errorResponseMap : GoMap Json) {routerId pathText : GoString}
    {filter : Json} {answer : GoString}
    (haction : actionOf requestMap = .subscribe)
    (hrouter : asString (valueAt requestMap (str "RouterId")) = some routerId)
    (hpath : asString (valueAt requestMap (str "path")) = some pathText)
    (hfilter : filterMember requestMap = some filter)
    (h : addSubscription m { s with errorResponseMap } requestMap routerId
      ((unpackPaths pathText).getD []) (unpackFilter m.range filter) = some (s', answer)) :
    ∃ e, subscribed m s.subscriptionId requestMap = some e ∧
      entries s' = entries s + ({e} : Multiset SubscriptionState) ∧
      s'.subscriptionId = s.subscriptionId + 1 := by
  obtain ⟨gatingId, path, rest, s₁, hpaths, hgating, hactivate, rfl, -⟩ := addSubscription_some h
  obtain ⟨hlist, -, -⟩ := activateIfIntervalOrCL_some hactivate
  refine ⟨newEntry m s routerId gatingId path rest (unpackFilter m.range filter), ?_, ?_, rfl⟩
  · simp [subscribed, haction, hrouter, hpath, hfilter, hgating, hpaths, newEntry]
  · have hentries : entries { s₁ with subscriptionId := s.subscriptionId + 1 } =
        (s.subscriptionList ++ [newEntry m s routerId gatingId path rest
          (unpackFilter m.range filter)] : List SubscriptionState) := by
      rw [entries]
      exact congrArg _ hlist
    rw [hentries, entries, ← Multiset.coe_add, Multiset.coe_singleton]

theorem subscribeRequest_entries (haction : actionOf requestMap = .subscribe)
    (h : (subscribeRequest m s requestMap).ending = .back s') :
    entries s' = entries s + (subscribed m s.subscriptionId requestMap).toList ∧
      s'.subscriptionId =
        s.subscriptionId + (subscribed m s.subscriptionId requestMap).toList.length := by
  have hadded : ∀ e, subscribed m s.subscriptionId requestMap = some e →
      entries s' = entries s + ({e} : Multiset SubscriptionState) →
      s'.subscriptionId = s.subscriptionId + 1 →
      entries s' = entries s + (subscribed m s.subscriptionId requestMap).toList ∧
        s'.subscriptionId =
          s.subscriptionId + (subscribed m s.subscriptionId requestMap).toList.length := by
    intro e he hentries hid
    rw [he, hentries, hid]
    exact ⟨rfl, rfl⟩
  unfold subscribeRequest at h
  split at h
  · next routerId path hrouter hpath =>
    dsimp only at h
    split at h
    · next hfilter =>
      obtain ⟨answer, hanswer⟩ := Handled.once_back h
      obtain ⟨rfl, -⟩ := Prod.mk.inj (Option.some.inj hanswer)
      have hnone : subscribed m s.subscriptionId requestMap = none := by
        simp [subscribed, hrouter, hpath, hfilter]
      rw [hnone]
      exact ⟨(Multiset.add_zero (entries s)).symm, (Int.add_zero _).symm⟩
    · next filter hfilter =>
      split at h
      · next hempty =>
        obtain ⟨answer, hadd⟩ := Handled.once_back h
        rw [← hempty] at hadd
        obtain ⟨e, he, hentries, hid⟩ :=
          addSubscription_entries _ haction hrouter hpath hfilter hadd
        exact hadded e he hentries hid
      · next hcons =>
        obtain ⟨answer, hadd⟩ := Handled.once_back h
        rw [← hcons] at hadd
        obtain ⟨e, he, hentries, hid⟩ :=
          addSubscription_entries s.errorResponseMap haction hrouter hpath hfilter hadd
        exact hadded e he hentries hid
  · simp at h

/-- What a request does to the entries. -/
theorem handleRequest_entries {request : GoString} (hs : DistinctIds s)
    (hend : (handleRequest cfg m s request).ending = .back s') :
    entries s' = ((entries s).filter fun e => ¬ removes s (requestMapOf request) e) +
        (subscribed m s.subscriptionId (requestMapOf request)).toList ∧
      s'.subscriptionId =
        s.subscriptionId + (subscribed m s.subscriptionId (requestMapOf request)).toList.length := by
  have hkept : (∀ e, removes s (requestMapOf request) e = false) →
      (entries s).filter (fun e => ¬ removes s (requestMapOf request) e) = entries s := by
    intro hnone
    exact Multiset.filter_eq_self.mpr fun e _ => by simp [hnone e]
  have hremoved : actionOf (requestMapOf request) ≠ .subscribe →
      entries s' = (entries s).filter (fun e => ¬ removes s (requestMapOf request) e) →
      s'.subscriptionId = s.subscriptionId →
      entries s' = ((entries s).filter fun e => ¬ removes s (requestMapOf request) e) +
          (subscribed m s.subscriptionId (requestMapOf request)).toList ∧
        s'.subscriptionId = s.subscriptionId +
          (subscribed m s.subscriptionId (requestMapOf request)).toList.length := by
    intro haction hentries hid
    rw [subscribed_eq_none haction, hid]
    exact ⟨hentries.trans (Multiset.add_zero _).symm, (Int.add_zero _).symm⟩
  have hid : actionOf (requestMapOf request) ≠ .subscribe →
      s'.subscriptionId = s.subscriptionId :=
    fun haction => (handleRequest_effect hend).subscriptionId haction
  have hquiet : actionOf (requestMapOf request) = .set ∨ actionOf (requestMapOf request) = .get ∨
      actionOf (requestMapOf request) = .other →
      entries s' = (entries s).filter (fun e => ¬ removes s (requestMapOf request) e) := by
    intro haction
    rw [handleRequest_quiet hend haction, hkept fun e => removes_eq_false ?_]
    rcases haction with h | h | h <;> simp [h]
  unfold handleRequest at hend
  dsimp only at hend
  cases haction : actionOf (requestMapOf request) with
  | set => exact hremoved (by simp [haction]) (hquiet (.inl haction)) (hid (by simp [haction]))
  | get =>
    exact hremoved (by simp [haction]) (hquiet (.inr (.inl haction))) (hid (by simp [haction]))
  | other =>
    exact hremoved (by simp [haction]) (hquiet (.inr (.inr haction))) (hid (by simp [haction]))
  | subscribe =>
    rw [haction] at hend
    rw [hkept fun e => removes_eq_false (by simp [haction])]
    exact subscribeRequest_entries haction hend
  | unsubscribe =>
    rw [haction] at hend
    obtain ⟨answer, hunsubscribe⟩ := Handled.once_back hend
    exact hremoved (by simp [haction]) (unsubscribeRequest_entries hs haction hunsubscribe)
      (hid (by simp [haction]))
  | killSubscriptions =>
    rw [haction] at hend
    exact hremoved (by simp [haction]) (killSubscriptions_entries hs haction hend)
      (hid (by simp [haction]))
  | cancelSubscription =>
    rw [haction] at hend
    exact hremoved (by simp [haction]) (cancelSubscription_entries hs haction hend)
      (hid (by simp [haction]))

theorem triggered_subscriptionId (cfg : Config) (m : Moment) (e : Event)
    (x : SubscriptionState) : (triggered cfg m e x).subscriptionId = x.subscriptionId := by
  unfold triggered
  split
  · cases hcheck : checkEntry cfg m x with
    | none => rfl
    | some r =>
      obtain ⟨x', messages⟩ := r
      obtain ⟨latestDataPoint, rfl⟩ := checkEntry_some hcheck
      rfl
  · split <;> rfl
  · rfl

theorem checkEntries_eq_map {l l' : List SubscriptionState} {messages : List GoString}
    (h : checkEntries cfg m l = some (l', messages)) :
    l' = l.map (triggered cfg m .subscriptTick) := by
  induction l generalizing l' messages with
  | nil =>
    obtain ⟨rfl, -⟩ := Prod.mk.inj (Option.some.inj h)
    rfl
  | cons x l ih =>
    simp only [checkEntries, Option.bind_eq_bind, Option.bind_eq_some_iff, Option.some.injEq,
      Prod.mk.injEq] at h
    obtain ⟨⟨x', _⟩, hx, ⟨rest, _⟩, hrest, rfl, -⟩ := h
    have hhead : triggered cfg m .subscriptTick x = x' := by simp [triggered, hx]
    rw [List.map_cons, hhead, ih hrest]

/-- The entry at the index of an id is the only one with the id. -/
theorem modify_eq_map {l : List SubscriptionState} {id : ℤ} {index : ℕ}
    (hnodup : (l.map SubscriptionState.subscriptionId).Nodup)
    (h : getSubcriptionStateIndex id l = some index)
    (f : SubscriptionState → SubscriptionState) :
    l.modify index f = l.map fun e => if e.subscriptionId = id then f e else e := by
  induction l generalizing index with
  | nil => simp
  | cons x l ih =>
    rw [List.map_cons, List.nodup_cons] at hnodup
    obtain ⟨hx, hnodup⟩ := hnodup
    rw [getSubcriptionStateIndex, List.findIdx?_cons] at h
    by_cases hid : x.subscriptionId = id
    · rw [if_pos (by simpa using hid), Option.some.injEq] at h
      have hrest : l.map (fun e => if e.subscriptionId = id then f e else e) = l := by
        refine (List.map_congr_left fun e he => if_neg fun heq => hx ?_).trans (List.map_id l)
        exact hid.trans heq.symm ▸ List.mem_map_of_mem he
      rw [← h, List.modify_zero_cons, List.map_cons, if_pos hid, hrest]
    · rw [if_neg (by simpa using hid), Option.map_eq_some_iff] at h
      obtain ⟨j, hj, rfl⟩ := h
      rw [List.modify_succ_cons, List.map_cons, if_neg hid, ih hnodup hj]

/-- What a trigger does to the entries. -/
theorem handleTrigger_entries {e : Event} {messages : List GoString} (hs : Fresh s)
    (h : handleTrigger cfg m s e = some (s', messages)) :
    entries s' = (entries s).map (triggered cfg m e) := by
  have hsame : s'.subscriptionList = s.subscriptionList → triggered cfg m e = id →
      entries s' = (entries s).map (triggered cfg m e) := by
    intro hlist htriggered
    rw [htriggered, Multiset.map_id, entries, entries, hlist]
  cases e with
  | request => simp [handleTrigger] at h
  | dummyTick =>
    obtain ⟨rfl, -⟩ := Prod.mk.inj (Option.some.inj h)
    exact hsame rfl rfl
  | interval id =>
    simp only [handleTrigger, intervalNotification, Option.bind_eq_bind,
      Option.bind_eq_some_iff, Option.some.injEq, Prod.mk.injEq] at h
    obtain ⟨_, -, _, -, _, -, _, -, rfl, -⟩ := h
    exact hsame rfl rfl
  | clPack id dataPack =>
    obtain ⟨index, hindex, rfl⟩ := curveLoggingNotification_some hs.threads h
    rw [entries, entries, Multiset.map_coe]
    exact congrArg _ (modify_eq_map hs.nodup hindex _)
  | subscriptTick =>
    simp only [handleTrigger, Option.bind_eq_bind, Option.bind_eq_some_iff, Option.some.injEq,
      Prod.mk.injEq] at h
    obtain ⟨⟨l, _⟩, hentries, rfl, -⟩ := h
    rw [entries, entries, Multiset.map_coe]
    exact congrArg _ (checkEntries_eq_map hentries)
  | capture =>
    rw [handleTrigger] at h
    split at h
    · obtain ⟨rfl, -⟩ := Prod.mk.inj (Option.some.inj h)
      exact hsame rfl rfl
    · obtain ⟨rfl, -⟩ := Prod.mk.inj (Option.some.inj h)
      exact hsame rfl rfl

theorem statusAfter_alive (request : GoString) (answers : List GoString) :
    Service.Alive ⟨s, statusAfter request answers⟩ := by
  unfold Service.Alive statusAfter
  split <;> exact ⟨nofun, nofun⟩

/-- A request comes back from its handler, or the state is as it was before. -/
theorem serviceStep_request {x x' : Service} {request : GoString} {output : Output}
    (h : serviceStep cfg x (m, .request request) = some (x', output)) :
    x.status = .running ∧
      (((handleRequest cfg m x.mgr request).ending = .back x'.mgr ∧ x'.Alive) ∨
        (x'.mgr = x.mgr ∧ ¬ x'.Alive)) := by
  simp only [serviceStep] at h
  split at h
  · simp at h
  · next hrunning =>
    rw [not_or, not_not] at hrunning
    refine ⟨hrunning.2, ?_⟩
    have hx' := (congrArg Prod.fst (Option.some.inj h)).symm
    dsimp only at hx'
    rw [hx', requestStep]
    cases hending : (handleRequest cfg m x.mgr request).ending with
    | back s' => exact .inl ⟨rfl, statusAfter_alive _ _⟩
    | panic => exact .inr ⟨rfl, fun hx => hx.1 rfl⟩
    | hang => exact .inr ⟨rfl, fun hx => hx.2 rfl⟩

theorem serviceStep_trigger {x x' : Service} {e : Event} {output : Output}
    (he : ∀ request, e ≠ .request request)
    (h : serviceStep cfg x (m, e) = some (x', output)) :
    (x.status = .running ∨ x.status = .unanswered) ∧
      ((∃ messages, handleTrigger cfg m x.mgr e = some (x'.mgr, messages)) ∨
        (x'.mgr = x.mgr ∧ ¬ x'.Alive)) := by
  unfold serviceStep at h
  split at h
  · next heq => exact absurd (Prod.mk.inj heq).2 (he _)
  · next m' e' _ heq =>
    obtain ⟨rfl, rfl⟩ := Prod.mk.inj heq
    split at h
    · simp at h
    · next hstatus =>
      rw [not_or, not_and_or, not_not, not_not] at hstatus
      refine ⟨hstatus.2, ?_⟩
      have hx' := (congrArg Prod.fst (Option.some.inj h)).symm
      dsimp only at hx'
      rw [hx', triggerStep]
      cases handleTrigger cfg m x.mgr e with
      | none => exact .inr ⟨rfl, fun hx => hx.1 rfl⟩
      | some r => exact .inl ⟨r.2, rfl⟩

end

end VissServer.ServiceMgr
