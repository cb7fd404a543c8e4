import VissServer.ServiceMgr.Loop

/-!
What one request can do to the state of the service manager: nothing but the map of error
responses, a new entry with its trigger, or the deactivation of entries, one by one. All
invariants of the subscription list and the ticker table are derived from this.
-/
namespace VissServer.ServiceMgr

open Go Utils Runs

theorem removeFromsubscriptionList_perm {l : List SubscriptionState} {index : ℕ}
    {e : SubscriptionState} (h : l[index]? = some e) :
    (e :: removeFromsubscriptionList l index).Perm l := by
  obtain ⟨hlt, he⟩ := List.getElem?_eq_some_iff.mp h
  have hne : l ≠ [] := List.ne_nil_of_length_pos (by omega)
  obtain ⟨front, last, rfl⟩ := (List.eq_nil_or_concat' l).resolve_left hne
  have hremove : removeFromsubscriptionList (front ++ [last]) index =
      ((front ++ [last]).set index last).dropLast := by
    simp [removeFromsubscriptionList]
  rw [hremove]
  by_cases hindex : index < front.length
  · obtain ⟨before, after, hsplit, hbefore⟩ :
        ∃ before after, front = before ++ e :: after ∧ before.length = index := by
      have hget : front[index] = e := by rw [← he, List.getElem_append_left hindex]
      refine ⟨front.take index, front.drop (index + 1), ?_, by simp; omega⟩
      rw [← hget, List.getElem_cons_drop, List.take_append_drop]
    subst hsplit hbefore
    have hset : (before ++ e :: after ++ [last]).set before.length last =
        (before ++ last :: after) ++ [last] := by
      simp
    rw [hset, List.dropLast_concat]
    have hlast : (before ++ last :: after).Perm (before ++ after ++ [last]) :=
      List.perm_middle.trans (List.perm_append_singleton last (before ++ after)).symm
    have he : (e :: (before ++ after ++ [last])).Perm (before ++ e :: after ++ [last]) := by
      have hmiddle : (before ++ e :: (after ++ [last])).Perm (e :: (before ++ (after ++ [last]))) :=
        List.perm_middle
      simpa using hmiddle.symm
    exact (hlast.cons e).trans he
  · have hend : index = front.length := by
      simp only [List.length_append, List.length_singleton] at hlt
      omega
    subst hend
    have hlast : last = e := by simpa using he
    subst hlast
    have hset : (front ++ [last]).set front.length last = front ++ [last] := by simp
    rw [hset, List.dropLast_concat]
    exact (List.perm_append_singleton last front).symm

/-- The deactivations of entries that meet a condition, one after another. -/
inductive Deactivations (P : State → SubscriptionState → Prop) : State → State → Prop
  | none (s : State) : Deactivations P s s
  | step {s s₁ s' : State} {index : ℕ} {e : SubscriptionState} :
      s.subscriptionList[index]? = some e → P s e → deactivateEntry s index e = some s₁ →
      Deactivations P s₁ s' → Deactivations P s s'

/-- An entry of the router id has the subscription id of the given one. -/
def namedBy (routerId : GoString) (s : State) (e : SubscriptionState) : Prop :=
  ∃ e' ∈ s.subscriptionList, e'.routerId = routerId ∧ e'.subscriptionId = e.subscriptionId

/-- The entry that a subscribe request adds. -/
def newEntry (m : Moment) (s : State) (routerId gatingId path : GoString)
    (paths : List GoString) (filterList : List FilterObject) : SubscriptionState where
  subscriptionId := s.subscriptionId
  routerId
  path := path :: paths
  filterList
  latestDataPoint := m.vehicleData path
  gatingId

/-- The state behind a request, with the members of the request that led to it. -/
inductive Effect (m : Moment) (s : State) (requestMap : GoMap Json) : State → Prop
  | quiet (errorResponseMap : GoMap Json) : Effect m s requestMap { s with errorResponseMap }
  | subscribe {routerId gatingId paths path : GoString} {rest : List GoString}
      {filter : Json} {errorResponseMap : GoMap Json} {s' : State} :
      actionOf requestMap = .subscribe →
      valueAt requestMap (str "RouterId") = .str routerId →
      valueAt requestMap (str "path") = .str paths → unpackPaths paths = some (path :: rest) →
      filterMember requestMap = some filter → gatingIdMember requestMap = some gatingId →
      activateIfIntervalOrCL
        { s with
          errorResponseMap
          subscriptionList := s.subscriptionList ++
            [newEntry m s routerId gatingId path rest (unpackFilter m.range filter)] }
        (unpackFilter m.range filter) s.subscriptionId (path :: rest) = some s' →
      Effect m s requestMap { s' with subscriptionId := s.subscriptionId + 1 }
  | unsubscribe {id : GoString} {s' : State} :
      actionOf requestMap = .unsubscribe →
      valueAt requestMap (str "subscriptionId") = .str id →
      Deactivations (fun _ e => e.subscriptionId = atoiIgnoringError id) s s' →
      Effect m s requestMap s'
  | kill {routerId : GoString} {s' : State} :
      actionOf requestMap = .killSubscriptions →
      valueAt requestMap (str "RouterId") = .str routerId →
      Deactivations (namedBy routerId) s s' →
      Effect m s requestMap s'
  | cancel {gatingId : GoString} {e₁ e₂ : SubscriptionState} {errorResponseMap : GoMap Json}
      {s' : State} :
      actionOf requestMap = .cancelSubscription →
      valueAt requestMap (str "gatingId") = .str gatingId →
      s.subscriptionList.find? (fun e => e.gatingId = gatingId) = some e₁ →
      s.subscriptionList.find? (fun e => e.routerId = e₁.routerId) = some e₂ →
      Deactivations (fun _ e => e.subscriptionId = e₂.subscriptionId)
        { s with errorResponseMap } s' →
      Effect m s requestMap s'

section

variable {cfg : Config} {m : Moment} {s s' : State} {requestMap : GoMap Json}

theorem effect_errorAnswer (errorListIndex : Fin 8) (altErrorMessage : GoString) :
    Effect m s requestMap (errorAnswer m s requestMap errorListIndex altErrorMessage).1 :=
  .quiet _

theorem effect_same : Effect m s requestMap s := .quiet s.errorResponseMap

theorem Handled.once_back {r : MayPanic (State × GoString)}
    (h : (Handled.once r).ending = .back s') : ∃ answer, r = some (s', answer) := by
  cases r with
  | none => simp [Handled.once] at h
  | some p =>
    obtain ⟨s₁, answer⟩ := p
    simp only [Handled.once, Ending.back.injEq] at h
    exact ⟨answer, by rw [h]⟩

theorem setRequest_effect {answer : GoString}
    (h : setRequest m s requestMap = some (s', answer)) : Effect m s requestMap s' := by
  simp only [setRequest, Option.bind_eq_bind, Option.bind_eq_some_iff] at h
  obtain ⟨path, -, h⟩ := h
  split at h
  · obtain ⟨rfl, -⟩ := Prod.mk.inj (Option.some.inj h)
    exact effect_errorAnswer 1 []
  · simp only [Option.bind_eq_some_iff] at h
    obtain ⟨value, -, ts, -, h⟩ := h
    split at h
    · obtain ⟨rfl, -⟩ := Prod.mk.inj (Option.some.inj h)
      exact effect_errorAnswer 7 []
    · obtain ⟨rfl, -⟩ := Prod.mk.inj (Option.some.inj h)
      exact effect_same

theorem dataAnswer_effect {pathArray : List GoString} {filterList : List FilterObject}
    {answer : GoString}
    (h : dataAnswer cfg m s requestMap pathArray filterList = some (s', answer)) :
    Effect m s requestMap s' := by
  simp only [dataAnswer, Option.bind_eq_bind, Option.bind_eq_some_iff] at h
  obtain ⟨dataPack, -, h⟩ := h
  split at h
  · obtain ⟨rfl, -⟩ := Prod.mk.inj (Option.some.inj h)
    exact effect_errorAnswer 6 []
  · simp only [Option.bind_eq_some_iff, Option.some.injEq, Prod.mk.injEq] at h
    obtain ⟨message, -, rfl, -⟩ := h
    exact effect_same

theorem getRequest_effect {answer : GoString}
    (h : getRequest cfg m s requestMap = some (s', answer)) : Effect m s requestMap s' := by
  simp only [getRequest, Option.bind_eq_bind, Option.bind_eq_some_iff] at h
  obtain ⟨path, -, h⟩ := h
  split at h
  · obtain ⟨rfl, -⟩ := Prod.mk.inj (Option.some.inj h)
    exact effect_errorAnswer 1 []
  · split at h
    · exact dataAnswer_effect h
    · obtain ⟨rfl, -⟩ := Prod.mk.inj (Option.some.inj h)
      exact effect_errorAnswer 0 []
    · split at h
      · simp only [Option.bind_eq_some_iff, Option.some.injEq, Prod.mk.injEq] at h
        obtain ⟨message, -, rfl, -⟩ := h
        exact effect_same
      · exact dataAnswer_effect h

theorem addSubscription_some {routerId pathText : GoString} {filterList : List FilterObject}
    {answer : GoString}
    (h : addSubscription m s requestMap routerId ((unpackPaths pathText).getD []) filterList =
      some (s', answer)) :
    ∃ gatingId path rest s₁, unpackPaths pathText = some (path :: rest) ∧
      gatingIdMember requestMap = some gatingId ∧
      activateIfIntervalOrCL
        { s with subscriptionList := s.subscriptionList ++
            [newEntry m s routerId gatingId path rest filterList] }
        filterList s.subscriptionId (path :: rest) = some s₁ ∧
      s' = { s₁ with subscriptionId := s.subscriptionId + 1 } ∧
      answer = finalizeMessage ((responseMapOf m requestMap).set (str "subscriptionId")
        (.str (itoa s.subscriptionId))) := by
  simp only [addSubscription, Option.bind_eq_bind, Option.bind_eq_some_iff, Option.some.injEq,
    Prod.mk.injEq] at h
  obtain ⟨gatingId, hgating, path, hhead, s₁, hactivate, rfl, rfl⟩ := h
  cases hpaths : unpackPaths pathText with
  | none => simp [hpaths] at hhead
  | some paths =>
    rw [hpaths, Option.getD_some] at hhead hactivate
    obtain ⟨rest, rfl⟩ := List.head?_eq_some_iff.mp hhead
    exact ⟨gatingId, path, rest, s₁, rfl, hgating, hactivate, rfl, rfl⟩

/-- A subscription is made for a request with members of the right types. -/
theorem addSubscription_effect (errorResponseMap : GoMap Json) {routerId pathText : GoString}
    {filter : Json} {answer : GoString} (haction : actionOf requestMap = .subscribe)
    (hrouter : valueAt requestMap (str "RouterId") = .str routerId)
    (hpath : valueAt requestMap (str "path") = .str pathText)
    (hfilter : filterMember requestMap = some filter)
    (h : addSubscription m { s with errorResponseMap } requestMap routerId
      ((unpackPaths pathText).getD []) (unpackFilter m.range filter) = some (s', answer)) :
    Effect m s requestMap s' := by
  obtain ⟨gatingId, path, rest, s₁, hpaths, hgating, hactivate, rfl, -⟩ := addSubscription_some h
  exact .subscribe haction hrouter hpath hpaths hfilter hgating hactivate

theorem subscribeRequest_effect (haction : actionOf requestMap = .subscribe)
    (h : (subscribeRequest m s requestMap).ending = .back s') : Effect m s requestMap s' := by
  unfold subscribeRequest at h
  split at h
  · next routerId path hrouter hpath =>
    rw [asString_eq_some] at hrouter hpath
    dsimp only at h
    split at h
    · obtain ⟨answer, hanswer⟩ := Handled.once_back h
      obtain ⟨rfl, -⟩ := Prod.mk.inj (Option.some.inj hanswer)
      exact effect_errorAnswer 0 []
    · next filter hfilter =>
      split at h
      · next hempty =>
        obtain ⟨answer, hadd⟩ := Handled.once_back h
        rw [← hempty] at hadd
        exact addSubscription_effect _ haction hrouter hpath hfilter hadd
      · next hcons =>
        obtain ⟨answer, hadd⟩ := Handled.once_back h
        rw [← hcons] at hadd
        exact addSubscription_effect s.errorResponseMap haction hrouter hpath hfilter hadd
  · simp at h

/-- A deactivation by a subscription id, as one of a list. -/
theorem deactivateSubscriptionId_deactivations {P : State → SubscriptionState → Prop} {id : ℤ}
    {s₁ : State} (hP : ∀ e : SubscriptionState, e.subscriptionId = id → P s e)
    (h : deactivateSubscriptionId s id = some (some s₁)) (hrest : Deactivations P s₁ s') :
    Deactivations P s s' := by
  rcases deactivateSubscriptionId_cases s id with ⟨-, hnone⟩ | ⟨index, e, hget, hid, -, heq⟩
  · simp [hnone] at h
  · rw [heq, Option.map_eq_some_iff] at h
    obtain ⟨s₂, hentry, hs₂⟩ := h
    rw [← Option.some.inj hs₂] at hrest
    exact .step hget (hP e hid) hentry hrest

/-- A pass of scanAndRemoveListItem finds no entry, or deactivates one. -/
theorem scanAndRemoveListItem_cases {routerId : GoString} {removed : Bool}
    (h : scanAndRemoveListItem s routerId = some (removed, s')) :
    (removed = false ∧ s' = s) ∨
    ∃ e, s.subscriptionList.find? (fun e => e.routerId = routerId) = some e ∧ removed = true ∧
      deactivateSubscriptionId s e.subscriptionId = some (some s') := by
  unfold scanAndRemoveListItem at h
  split at h
  · obtain ⟨rfl, rfl⟩ := Prod.mk.inj (Option.some.inj h)
    exact .inl ⟨rfl, rfl⟩
  · next e hfind =>
    simp only [Option.bind_eq_bind, Option.bind_eq_some_iff, Option.some.injEq,
      Prod.mk.injEq] at h
    obtain ⟨r, hdeactivate, rfl, rfl⟩ := h
    refine .inr ⟨e, hfind, rfl, ?_⟩
    cases r with
    | some s₁ => exact hdeactivate
    | none =>
      -- the entry that was found has the id
      rcases deactivateSubscriptionId_cases s e.subscriptionId with
        ⟨hnone, -⟩ | ⟨index, e', -, -, -, heq⟩
      · have hself := List.find?_eq_none.mp hnone e (List.mem_of_find?_eq_some hfind)
        simp at hself
      · rw [hdeactivate] at heq
        cases hentry : deactivateEntry s index e' <;> simp [hentry] at heq

/-- A pass that deactivates an entry, and what is deactivated behind it. -/
theorem scanAndRemoveListItem_deactivations {routerId : GoString} {s₁ : State}
    (hscan : scanAndRemoveListItem s routerId = some (true, s₁))
    (h : Deactivations (namedBy routerId) s₁ s') : Deactivations (namedBy routerId) s s' := by
  rcases scanAndRemoveListItem_cases hscan with ⟨hfalse, -⟩ | ⟨e, hfind, -, hdeactivate⟩
  · cases hfalse
  · have hmem := List.mem_of_find?_eq_some hfind
    have hrouter : e.routerId = routerId := by simpa using List.find?_some hfind
    exact deactivateSubscriptionId_deactivations
      (fun e' he' => ⟨e, hmem, hrouter, he'.symm⟩) hdeactivate h

theorem killLoop_deactivations {routerId : GoString} {passes : ℕ}
    (h : killLoop routerId passes s = .back s') :
    Deactivations (namedBy routerId) s s' := by
  induction passes generalizing s with
  | zero => simp [killLoop] at h
  | succ passes ih =>
    rw [killLoop] at h
    split at h
    · simp at h
    · next s₁ hscan =>
      rcases scanAndRemoveListItem_cases hscan with ⟨-, rfl⟩ | ⟨e, -, htrue, -⟩
      · rw [← Ending.back.inj h]
        exact .none _
      · simp at htrue
    · next s₁ hscan => exact scanAndRemoveListItem_deactivations hscan (ih h)

theorem unsubscribeRequest_effect (haction : actionOf requestMap = .unsubscribe)
    {answer : GoString} (h : unsubscribeRequest m s requestMap = some (s', answer)) :
    Effect m s requestMap s' := by
  unfold unsubscribeRequest at h
  split at h
  · obtain ⟨rfl, -⟩ := Prod.mk.inj (Option.some.inj h)
    exact effect_errorAnswer 1 []
  · next id hid =>
    rw [asString_eq_some] at hid
    simp only [Option.bind_eq_bind, Option.bind_eq_some_iff] at h
    obtain ⟨r, hdeactivate, h⟩ := h
    split at h
    · obtain ⟨rfl, -⟩ := Prod.mk.inj (Option.some.inj h)
      exact effect_errorAnswer 1 []
    · obtain ⟨rfl, -⟩ := Prod.mk.inj (Option.some.inj h)
      exact .unsubscribe haction hid
        (deactivateSubscriptionId_deactivations (fun _ he => he) hdeactivate (.none _))

theorem killSubscriptions_effect (haction : actionOf requestMap = .killSubscriptions)
    (h : (killSubscriptions s requestMap).ending = .back s') : Effect m s requestMap s' := by
  unfold killSubscriptions at h
  split at h
  · simp at h
  · next routerId hrouter =>
    rw [asString_eq_some] at hrouter
    exact .kill haction hrouter (killLoop_deactivations h)

theorem cancelSubscription_effect (haction : actionOf requestMap = .cancelSubscription)
    (h : (cancelSubscription m s requestMap).ending = .back s') : Effect m s requestMap s' := by
  unfold cancelSubscription at h
  split at h
  · simp at h
  · next gatingId hgating =>
    rw [asString_eq_some] at hgating
    cases hfind : s.subscriptionList.find? fun e => e.gatingId = gatingId with
    | none =>
      simp only [getSubscriptionData, hfind, if_true, Ending.back.injEq] at h
      rw [← h]
      exact effect_same
    | some e₁ =>
      simp only [getSubscriptionData, hfind] at h
      split at h
      · rw [← Ending.back.inj h]
        exact effect_same
      · dsimp only at h
        split at h
        · simp at h
        · next removed s₁ hscan =>
          rw [← Ending.back.inj h]
          rcases scanAndRemoveListItem_cases hscan with ⟨-, rfl⟩ | ⟨e₂, hfirst, -, hdeactivate⟩
          · exact .quiet _
          · exact .cancel haction hgating hfind hfirst
              (deactivateSubscriptionId_deactivations (fun _ he => he) hdeactivate (.none _))

/-- Every request that is handled has one of these effects. -/
theorem handleRequest_effect {request : GoString}
    (h : (handleRequest cfg m s request).ending = .back s') :
    Effect m s (requestMapOf request) s' := by
  unfold handleRequest at h
  dsimp only at h
  cases haction : actionOf (requestMapOf request) with
  | set =>
    rw [haction] at h
    obtain ⟨answer, hset⟩ := Handled.once_back h
    exact setRequest_effect hset
  | get =>
    rw [haction] at h
    obtain ⟨answer, hget⟩ := Handled.once_back h
    exact getRequest_effect hget
  | subscribe =>
    rw [haction] at h
    exact subscribeRequest_effect haction h
  | unsubscribe =>
    rw [haction] at h
    obtain ⟨answer, hunsubscribe⟩ := Handled.once_back h
    exact unsubscribeRequest_effect haction hunsubscribe
  | killSubscriptions =>
    rw [haction] at h
    exact killSubscriptions_effect haction h
  | cancelSubscription =>
    rw [haction] at h
    exact cancelSubscription_effect haction h
  | other =>
    rw [haction] at h
    obtain ⟨answer, hanswer⟩ := Handled.once_back h
    obtain ⟨rfl, -⟩ := Prod.mk.inj (Option.some.inj hanswer)
    exact effect_errorAnswer 1 []

end

end VissServer.ServiceMgr
